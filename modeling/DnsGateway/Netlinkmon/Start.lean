import DnsGateway.Reasoning.Channel
import DnsGateway.Netlinkmon.Resync

/-!
# `Start` from the subscription to its return (`internal/netlinkmon/monitor.go`)

`Start` runs its loop beside the resync goroutine; both send on `m.events`, which `Start` closes.
On the way out it closes `stopResync`, waits for `resyncDone`, and only then closes `done` and
`m.events`.  The consumer of the events, the netlink library and whoever cancels the context may act
between any two steps.
-/

namespace DnsGateway.Netlinkmon

open DnsGateway.Reasoning DnsGateway.Dnsenc

/-- An error of the netlink library, by the one test that is made on it. -/
inductive NetlinkError where
  | dumpInterrupted
  | other (text : GoString)
  deriving DecidableEq, Repr

/-- The errors `Start` returns. -/
inductive StartError where
  | subscribe (err : NetlinkError)
  | subscription (err : NetlinkError)
  | updatesClosed
  deriving DecidableEq, Repr

def StartError.format : StartError → String
  | subscribe _ => "netlink LinkSubscribe: %w"
  | subscription _ => "netlink subscription error: %w"
  | updatesClosed => "netlink updates channel closed unexpectedly"

/-- Where `Start` stands; behind its loop are the deferred calls, the last registered first. -/
inductive StartPc where
  | subscribing
  | selecting
  | emitting (ev : Event)
  -- `close(stopResync)` comes next.
  | stopping (err : Option StartError)
  -- `<-resyncDone`.
  | joining (err : Option StartError)
  | closingDone (err : Option StartError)
  | closingEvents (err : Option StartError)
  | returned (err : Option StartError)

structure Start where
  known : Known
  events : Chan Event
  done : Chan Unit
  stopResync : Chan Unit
  resyncDone : Chan Unit
  -- The subscription loop of the library has exited.
  updatesClosed : Bool
  lastFatalErr : Option NetlinkError
  dumpInterrupted : Bool
  canceled : Bool
  main : StartPc
  -- `none` as long as the goroutine is not started.
  resync : Option ResyncPc
  panicked : Option ChanPanic
  -- The events the locked sections found, those the consumer received, and those given up.
  found : List Event
  received : List Event
  dropped : List Event

/-- The steps of `Start` itself. -/
inductive MainAct where
  | subscribe (err : Option NetlinkError)
  | ctxDone
  | updatesClosed
  | update (u : LinkUpdate)
  | send
  | giveUp
  | closeStop
  | join
  | closeDone
  | closeEvents

/-- The steps of the resync goroutine. -/
inductive ResyncAct where
  | quit
  | tick
  | linkList (links : Option (List Link))
  | clearFlag
  | nextLink
  | send
  | giveUp

inductive StartAct where
  | main (a : MainAct)
  | resync (a : ResyncAct)
  | cancel
  | errorCallback (err : NetlinkError)
  | closeUpdates
  | receive

/-- `New`, at the entry of `Start`. -/
def Start.new : Start where
  known := ∅
  events := .make Event 32
  done := .make Unit 0
  stopResync := .make Unit 0
  resyncDone := .make Unit 0
  updatesClosed := false
  lastFatalErr := none
  dumpInterrupted := false
  canceled := false
  main := .subscribing
  resync := none
  panicked := none
  found := []
  received := []
  dropped := []

/-- The cases of `emit` other than the send. -/
def Start.stopped (s : Start) : Bool := s.canceled || s.stopResync.closed

/-- `m.events <- ev`; a blocked send is not possible. -/
def Start.send (s : Start) (ev : Event) : Option Start :=
  match s.events.send ev with
  | none => none
  | some (.error p) => some { s with panicked := some p }
  | some (.ok events) => some { s with events := events }

def Start.mainNext (s : Start) : MainAct → Option Start
  | .subscribe err =>
      match s.main, err with
      | .subscribing, none => some { s with main := .selecting, resync := some .idle }
      | .subscribing, some err => some { s with main := .closingDone (some (.subscribe err)) }
      | _, _ => none
  | .ctxDone =>
      match s.main with
      | .selecting => if s.canceled then some { s with main := .stopping none } else none
      | _ => none
  | .updatesClosed =>
      match s.main with
      | .selecting =>
          if s.updatesClosed then
            match s.lastFatalErr with
            | some err => some { s with main := .stopping (some (.subscription err)) }
            | none => some { s with main := .stopping (some .updatesClosed) }
          else none
      | _ => none
  | .update u =>
      match s.main with
      | .selecting =>
          match handle u s.known with
          | (known, none) => some { s with known := known }
          | (known, some ev) =>
              some { s with known := known, found := s.found ++ [ev], main := .emitting ev }
      | _ => none
  | .send =>
      match s.main with
      | .emitting ev => ({ s with main := .selecting } : Start).send ev
      | _ => none
  | .giveUp =>
      match s.main with
      | .emitting ev =>
          if s.stopped then some { s with main := .stopping none, dropped := s.dropped ++ [ev] }
          else none
      | _ => none
  | .closeStop =>
      match s.main with
      | .stopping err =>
          match s.stopResync.close with
          | .ok c => some { s with stopResync := c, main := .joining err }
          | .error p => some { s with panicked := some p }
      | _ => none
  | .join =>
      match s.main with
      | .joining err =>
          if s.resyncDone.closed then some { s with main := .closingDone err } else none
      | _ => none
  | .closeDone =>
      match s.main with
      | .closingDone err =>
          match s.done.close with
          | .ok c => some { s with done := c, main := .closingEvents err }
          | .error p => some { s with panicked := some p }
      | _ => none
  | .closeEvents =>
      match s.main with
      | .closingEvents err =>
          match s.events.close with
          | .ok c => some { s with events := c, main := .returned err }
          | .error p => some { s with panicked := some p }
      | _ => none

/-- The resync goroutine returns: `defer close(resyncDone)`. -/
def Start.resyncReturn (s : Start) : Start :=
  match s.resyncDone.close with
  | .ok c => { s with resyncDone := c, resync := some .exited }
  | .error p => { s with panicked := some p }

def Start.resyncNext (s : Start) : ResyncAct → Option Start
  | .quit =>
      match s.resync with
      | some .idle => if s.stopped then some s.resyncReturn else none
      | _ => none
  | .tick =>
      match s.resync with
      | some .idle =>
          some { s with resync := some (if s.dumpInterrupted then .listing else .idle) }
      | _ => none
  | .linkList links =>
      match s.resync, links with
      | some .listing, none => some { s with resync := some .idle }
      | some .listing, some links => some { s with resync := some (.listed links) }
      | _, _ => none
  | .clearFlag =>
      match s.resync with
      | some (.listed links) =>
          some { s with dumpInterrupted := false, resync := some (.scanning links) }
      | _ => none
  | .nextLink =>
      match s.resync with
      | some (.scanning []) => some { s with resync := some .idle }
      | some (.scanning (link :: links)) =>
          match resyncLink link s.known with
          | (known, none) => some { s with known := known, resync := some (.scanning links) }
          | (known, some ev) =>
              some { s with
                known := known
                found := s.found ++ [ev]
                resync := some (.sending ev links) }
      | _ => none
  | .send =>
      match s.resync with
      | some (.sending ev links) => ({ s with resync := some (.scanning links) } : Start).send ev
      | _ => none
  | .giveUp =>
      match s.resync with
      | some (.sending ev _) =>
          if s.stopped then
            some ({ s with dropped := s.dropped ++ [ev] } : Start).resyncReturn
          else none
      | _ => none

/-- `ErrorCallback`. -/
def Start.errorCallback (s : Start) (err : NetlinkError) : Start :=
  if s.canceled then s
  else if err = .dumpInterrupted then { s with dumpInterrupted := true }
  else { s with lastFatalErr := some err }

/-- `Start` after an action, if the action is possible; none is behind a panic. -/
def Start.next (s : Start) (a : StartAct) : Option Start :=
  if s.panicked.isSome then none
  else
    match a with
    | .main a => s.mainNext a
    | .resync a => s.resyncNext a
    | .cancel => some { s with canceled := true }
    | .errorCallback err => if s.resync.isSome then some (s.errorCallback err) else none
    | .closeUpdates => if s.resync.isSome then some { s with updatesClosed := true } else none
    | .receive =>
        match s.events.receive with
        | none => none
        | some (v, events) =>
            some { s with events := events, received := s.received ++ v.toList }

def Start.run (s : Start) (acts : List StartAct) : Option Start := acts.foldlM Start.next s

/-! ## What is closed, and when -/

def StartPc.pastStop : StartPc → Bool
  | .joining _ | .closingDone _ | .closingEvents _ | .returned _ => true
  | _ => false

def StartPc.pastJoin : StartPc → Bool
  | .closingDone _ | .closingEvents _ | .returned _ => true
  | _ => false

def StartPc.pastDone : StartPc → Bool
  | .closingEvents _ | .returned _ => true
  | _ => false

def StartPc.hasReturned : StartPc → Bool
  | .returned _ => true
  | _ => false

theorem StartPc.pastJoin_of_hasReturned {pc : StartPc} (h : pc.hasReturned = true) :
    pc.pastJoin = true := by
  cases pc with
  | returned err => rfl
  | _ => cases h

/-- Each channel is closed exactly when the one goroutine that closes it is past its `close`. -/
structure Sound (s : Start) : Prop where
  panicked : s.panicked = none
  stop : s.stopResync.closed = (s.main.pastStop && s.resync.isSome)
  done : s.done.closed = s.main.pastDone
  events : s.events.closed = s.main.hasReturned
  resyncDone : s.resyncDone.closed = true ↔ s.resync = some .exited
  joined : s.main.pastJoin = true → s.resync = none ∨ s.resync = some .exited
  started : s.resync = none → s.main = .subscribing ∨ s.main.pastJoin = true
  subscribing : s.main = .subscribing → s.resync = none

theorem Sound.new : Sound .new := by
  constructor <;> simp [Start.new, Chan.make, StartPc.pastStop, StartPc.pastJoin, StartPc.pastDone,
    StartPc.hasReturned]

/-- What a step of `Start` itself does, as long as no channel is misused. -/
inductive MainStep (s : Start) : MainAct → Start → Prop where
  | subscribed (h : s.main = .subscribing) :
      MainStep s (.subscribe none) { s with main := .selecting, resync := some .idle }
  | refused (h : s.main = .subscribing) (err : NetlinkError) :
      MainStep s (.subscribe (some err)) { s with main := .closingDone (some (.subscribe err)) }
  | ctxDone (h : s.main = .selecting) (hcanceled : s.canceled = true) :
      MainStep s .ctxDone { s with main := .stopping none }
  | failed (h : s.main = .selecting) (hclosed : s.updatesClosed = true) (err : NetlinkError)
      (herr : s.lastFatalErr = some err) :
      MainStep s .updatesClosed { s with main := .stopping (some (.subscription err)) }
  | ended (h : s.main = .selecting) (hclosed : s.updatesClosed = true) :
      MainStep s .updatesClosed { s with main := .stopping (some .updatesClosed) }
  | ignored (h : s.main = .selecting) (u : LinkUpdate) (known : Known)
      (hhandle : handle u s.known = (known, none)) :
      MainStep s (.update u) { s with known := known }
  | found (h : s.main = .selecting) (u : LinkUpdate) (known : Known) (ev : Event)
      (hhandle : handle u s.known = (known, some ev)) :
      MainStep s (.update u)
        { s with known := known, found := s.found ++ [ev], main := .emitting ev }
  | sent (ev : Event) (h : s.main = .emitting ev) (c : Chan Event)
      (hbuf : c.buf = s.events.buf ++ [ev]) (hopen : c.closed = false) :
      MainStep s .send { s with main := .selecting, events := c }
  | gaveUp (ev : Event) (h : s.main = .emitting ev) (hstopped : s.stopped = true) :
      MainStep s .giveUp { s with main := .stopping none, dropped := s.dropped ++ [ev] }
  | closedStop (err : Option StartError) (h : s.main = .stopping err) (c : Chan Unit)
      (hclosed : c.closed = true) :
      MainStep s .closeStop { s with stopResync := c, main := .joining err }
  | joined (err : Option StartError) (h : s.main = .joining err)
      (hclosed : s.resyncDone.closed = true) :
      MainStep s .join { s with main := .closingDone err }
  | closedDone (err : Option StartError) (h : s.main = .closingDone err) (c : Chan Unit)
      (hclosed : c.closed = true) :
      MainStep s .closeDone { s with done := c, main := .closingEvents err }
  | closedEvents (err : Option StartError) (h : s.main = .closingEvents err) (c : Chan Event)
      (hbuf : c.buf = s.events.buf) (hclosed : c.closed = true) :
      MainStep s .closeEvents { s with events := c, main := .returned err }

-- A send while `m.events` is open.
theorem Start.send_of_open {s t : Start} {ev : Event} (h : s.send ev = some t)
    (hopen : s.events.closed = false) :
    ∃ c, c.buf = s.events.buf ++ [ev] ∧ c.closed = false ∧ t = { s with events := c } := by
  rw [Start.send] at h
  cases hsend : s.events.send ev with
  | none =>
      rw [hsend] at h
      cases h
  | some r =>
      rcases Chan.send_of_open hopen hsend with ⟨c, rfl, hbuf, hclosed⟩
      rw [hsend] at h
      cases h
      exact ⟨c, hbuf, hclosed, rfl⟩

theorem Sound.mainStep {s t : Start} {a : MainAct} (h : Sound s) (hnext : s.mainNext a = some t) :
    MainStep s a t := by
  cases a with
  | subscribe err =>
      simp only [Start.mainNext] at hnext
      split at hnext
      · rename_i hmain
        cases hnext
        exact .subscribed hmain
      · rename_i err hmain
        cases hnext
        exact .refused hmain err
      · cases hnext
  | ctxDone =>
      rw [Start.mainNext] at hnext
      split at hnext
      · rename_i hmain
        rcases Option.ite_none_right_eq_some.mp hnext with ⟨hcanceled, hnext⟩
        cases hnext
        exact .ctxDone hmain hcanceled
      · cases hnext
  | updatesClosed =>
      rw [Start.mainNext] at hnext
      split at hnext
      · rename_i hmain
        rcases Option.ite_none_right_eq_some.mp hnext with ⟨hclosed, hnext⟩
        split at hnext
        · rename_i err herr
          cases hnext
          exact .failed hmain hclosed err herr
        · cases hnext
          exact .ended hmain hclosed
      · cases hnext
  | update u =>
      rw [Start.mainNext] at hnext
      split at hnext
      · rename_i hmain
        split at hnext
        · rename_i known hhandle
          cases hnext
          exact .ignored hmain u known hhandle
        · rename_i known ev hhandle
          cases hnext
          exact .found hmain u known ev hhandle
      · cases hnext
  | send =>
      rw [Start.mainNext] at hnext
      split at hnext
      · rename_i ev hmain
        have hopen : s.events.closed = false := by rw [h.events, hmain]; rfl
        rcases Start.send_of_open hnext hopen with ⟨c, hbuf, hclosed, rfl⟩
        exact .sent ev hmain c hbuf hclosed
      · cases hnext
  | giveUp =>
      rw [Start.mainNext] at hnext
      split at hnext
      · rename_i ev hmain
        rcases Option.ite_none_right_eq_some.mp hnext with ⟨hstopped, hnext⟩
        cases hnext
        exact .gaveUp ev hmain hstopped
      · cases hnext
  | closeStop =>
      rw [Start.mainNext] at hnext
      split at hnext
      · rename_i err hmain
        rw [Chan.close_of_open (by rw [h.stop, hmain]; rfl)] at hnext
        cases hnext
        exact .closedStop err hmain _ rfl
      · cases hnext
  | join =>
      rw [Start.mainNext] at hnext
      split at hnext
      · rename_i err hmain
        rcases Option.ite_none_right_eq_some.mp hnext with ⟨hclosed, hnext⟩
        cases hnext
        exact .joined err hmain hclosed
      · cases hnext
  | closeDone =>
      rw [Start.mainNext] at hnext
      split at hnext
      · rename_i err hmain
        rw [Chan.close_of_open (by rw [h.done, hmain]; rfl)] at hnext
        cases hnext
        exact .closedDone err hmain _ rfl
      · cases hnext
  | closeEvents =>
      rw [Start.mainNext] at hnext
      split at hnext
      · rename_i err hmain
        rw [Chan.close_of_open (by rw [h.events, hmain]; rfl)] at hnext
        cases hnext
        exact .closedEvents err hmain _ rfl rfl
      · cases hnext

/-- What a step of the resync goroutine does, as long as no channel is misused. -/
inductive ResyncStep (s : Start) : ResyncAct → Start → Prop where
  | quit (h : s.resync = some .idle) (hstopped : s.stopped = true) (c : Chan Unit)
      (hclosed : c.closed = true) :
      ResyncStep s .quit { s with resyncDone := c, resync := some .exited }
  | lingered (h : s.resync = some .idle) (hflag : s.dumpInterrupted = false) : ResyncStep s .tick s
  | woke (h : s.resync = some .idle) (hflag : s.dumpInterrupted = true) :
      ResyncStep s .tick { s with resync := some .listing }
  | unlisted (h : s.resync = some .listing) :
      ResyncStep s (.linkList none) { s with resync := some .idle }
  | listed (h : s.resync = some .listing) (links : List Link) :
      ResyncStep s (.linkList (some links)) { s with resync := some (.listed links) }
  | cleared (links : List Link) (h : s.resync = some (.listed links)) :
      ResyncStep s .clearFlag
        { s with dumpInterrupted := false, resync := some (.scanning links) }
  | scanned (h : s.resync = some (.scanning [])) :
      ResyncStep s .nextLink { s with resync := some .idle }
  | skipped (link : Link) (links : List Link) (h : s.resync = some (.scanning (link :: links)))
      (known : Known) (hlink : resyncLink link s.known = (known, none)) :
      ResyncStep s .nextLink { s with known := known, resync := some (.scanning links) }
  | found (link : Link) (links : List Link) (h : s.resync = some (.scanning (link :: links)))
      (known : Known) (ev : Event) (hlink : resyncLink link s.known = (known, some ev)) :
      ResyncStep s .nextLink { s with
        known := known
        found := s.found ++ [ev]
        resync := some (.sending ev links) }
  | sent (ev : Event) (links : List Link) (h : s.resync = some (.sending ev links))
      (c : Chan Event) (hbuf : c.buf = s.events.buf ++ [ev]) (hopen : c.closed = false) :
      ResyncStep s .send { s with resync := some (.scanning links), events := c }
  | gaveUp (ev : Event) (links : List Link) (h : s.resync = some (.sending ev links))
      (hstopped : s.stopped = true) (c : Chan Unit) (hclosed : c.closed = true) :
      ResyncStep s .giveUp
        { s with dropped := s.dropped ++ [ev], resyncDone := c, resync := some .exited }

-- The goroutine returns once.
theorem Start.resyncReturn_eq {s : Start} (hopen : s.resyncDone.closed = false) :
    s.resyncReturn =
      { s with resyncDone := { s.resyncDone with closed := true }, resync := some .exited } := by
  rw [Start.resyncReturn, Chan.close_of_open hopen]

-- As long as the goroutine has not returned, `resyncDone` and `m.events` are open.
theorem Sound.running {s : Start} (h : Sound s) {pc : ResyncPc} (hpc : s.resync = some pc)
    (hne : pc ≠ .exited) : s.resyncDone.closed = false ∧ s.events.closed = false := by
  constructor
  · apply Bool.eq_false_iff.mpr
    intro hclosed
    have hexited := h.resyncDone.mp hclosed
    rw [hpc] at hexited
    exact hne (Option.some.inj hexited)
  · rw [h.events]
    apply Bool.eq_false_iff.mpr
    intro hreturned
    rcases h.joined (StartPc.pastJoin_of_hasReturned hreturned) with hnone | hexited
    · rw [hpc] at hnone
      cases hnone
    · rw [hpc] at hexited
      exact hne (Option.some.inj hexited)

theorem Sound.resyncStep {s t : Start} {a : ResyncAct} (h : Sound s)
    (hnext : s.resyncNext a = some t) : ResyncStep s a t := by
  cases a with
  | quit =>
      rw [Start.resyncNext] at hnext
      split at hnext
      · rename_i hpc
        rcases Option.ite_none_right_eq_some.mp hnext with ⟨hstopped, hnext⟩
        cases hnext
        rw [Start.resyncReturn_eq (h.running hpc (by simp)).1]
        exact .quit hpc hstopped _ rfl
      · cases hnext
  | tick =>
      rw [Start.resyncNext] at hnext
      split at hnext
      · rename_i hpc
        cases hnext
        by_cases hflag : s.dumpInterrupted = true
        · rw [if_pos hflag]
          exact .woke hpc hflag
        · rw [if_neg hflag, ← hpc]
          exact .lingered hpc (Bool.not_eq_true _ ▸ hflag)
      · cases hnext
  | linkList links =>
      simp only [Start.resyncNext] at hnext
      split at hnext
      · rename_i hpc
        cases hnext
        exact .unlisted hpc
      · rename_i links hpc
        cases hnext
        exact .listed hpc links
      · cases hnext
  | clearFlag =>
      rw [Start.resyncNext] at hnext
      split at hnext
      · rename_i links hpc
        cases hnext
        exact .cleared links hpc
      · cases hnext
  | nextLink =>
      rw [Start.resyncNext] at hnext
      split at hnext
      · rename_i hpc
        cases hnext
        exact .scanned hpc
      · rename_i link links hpc
        split at hnext
        · rename_i known hlink
          cases hnext
          exact .skipped link links hpc known hlink
        · rename_i known ev hlink
          cases hnext
          exact .found link links hpc known ev hlink
      · cases hnext
  | send =>
      rw [Start.resyncNext] at hnext
      split at hnext
      · rename_i ev links hpc
        have hopen : s.events.closed = false := (h.running hpc (by simp)).2
        rcases Start.send_of_open hnext hopen with ⟨c, hbuf, hclosed, rfl⟩
        exact .sent ev links hpc c hbuf hclosed
      · cases hnext
  | giveUp =>
      rw [Start.resyncNext] at hnext
      split at hnext
      · rename_i ev links hpc
        rcases Option.ite_none_right_eq_some.mp hnext with ⟨hstopped, hnext⟩
        cases hnext
        rw [Start.resyncReturn_eq (s := { s with dropped := s.dropped ++ [ev] })
          (h.running hpc (by simp)).1]
        exact .gaveUp ev links hpc hstopped _ rfl
      · cases hnext

theorem MainStep.sound {s t : Start} {a : MainAct} (h : Sound s) (hstep : MainStep s a t) :
    Sound t := by
  rcases h with ⟨hpanic, hstop, hdone, hevents, hresync, hjoined, hstarted, hsub⟩
  cases hstep <;> constructor <;>
    simp_all [StartPc.pastStop, StartPc.pastJoin, StartPc.pastDone, StartPc.hasReturned,
      Option.isSome_iff_ne_none]

theorem ResyncStep.sound {s t : Start} {a : ResyncAct} (h : Sound s) (hstep : ResyncStep s a t) :
    Sound t := by
  have hpc := @Sound.running s h
  rcases h with ⟨hpanic, hstop, hdone, hevents, hresync, hjoined, hstarted, hsub⟩
  cases hstep <;> constructor <;> simp_all

-- Whatever leaves the goroutines where they are.
theorem Sound.frame {s t : Start} (h : Sound s) (hpanic : t.panicked = s.panicked)
    (hstop : t.stopResync = s.stopResync) (hdone : t.done = s.done)
    (hevents : t.events.closed = s.events.closed) (hresyncDone : t.resyncDone = s.resyncDone)
    (hmain : t.main = s.main) (hresync : t.resync = s.resync) : Sound t := by
  constructor
  · rw [hpanic]
    exact h.panicked
  · rw [hstop, hmain, hresync]
    exact h.stop
  · rw [hdone, hmain]
    exact h.done
  · rw [hevents, hmain]
    exact h.events
  · rw [hresyncDone, hresync]
    exact h.resyncDone
  · rw [hmain, hresync]
    exact h.joined
  · rw [hmain, hresync]
    exact h.started
  · rw [hmain, hresync]
    exact h.subscribing

/-- What an action does, as long as no channel is misused. -/
inductive StartStep (s : Start) : StartAct → Start → Prop where
  | main (a : MainAct) (t : Start) (h : MainStep s a t) : StartStep s (.main a) t
  | resync (a : ResyncAct) (t : Start) (h : ResyncStep s a t) : StartStep s (.resync a) t
  | cancel : StartStep s .cancel { s with canceled := true }
  | errorCallback (err : NetlinkError) : StartStep s (.errorCallback err) (s.errorCallback err)
  | closeUpdates : StartStep s .closeUpdates { s with updatesClosed := true }
  | receive (v : Option Event) (c : Chan Event) (hbuf : s.events.buf = v.toList ++ c.buf)
      (hclosed : c.closed = s.events.closed) :
      StartStep s .receive { s with events := c, received := s.received ++ v.toList }

theorem Sound.step {s t : Start} {a : StartAct} (h : Sound s) (hnext : s.next a = some t) :
    StartStep s a t := by
  unfold Start.next at hnext
  rw [if_neg (by simp [h.panicked])] at hnext
  cases a with
  | main a => exact .main a t (h.mainStep hnext)
  | resync a => exact .resync a t (h.resyncStep hnext)
  | cancel =>
      cases hnext
      exact .cancel
  | errorCallback err =>
      rcases Option.ite_none_right_eq_some.mp hnext with ⟨-, hnext⟩
      cases hnext
      exact .errorCallback err
  | closeUpdates =>
      rcases Option.ite_none_right_eq_some.mp hnext with ⟨-, hnext⟩
      cases hnext
      exact .closeUpdates
  | receive =>
      dsimp only at hnext
      split at hnext
      · cases hnext
      · rename_i v c hreceive
        rcases Chan.receive_eq_some hreceive with ⟨hbuf, hclosed⟩
        cases hnext
        exact .receive v c hbuf hclosed

-- `ErrorCallback` touches one field.
theorem Start.errorCallback_eq (s : Start) (err : NetlinkError) :
    ∃ flag fatal, s.errorCallback err =
      { s with dumpInterrupted := flag, lastFatalErr := fatal } ∧
        (fatal = s.lastFatalErr ∨ fatal = some err ∧ err ≠ .dumpInterrupted) := by
  unfold Start.errorCallback
  split
  · exact ⟨_, _, rfl, Or.inl rfl⟩
  · split
    · exact ⟨true, _, rfl, Or.inl rfl⟩
    · rename_i herr
      exact ⟨_, some err, rfl, Or.inr ⟨rfl, herr⟩⟩

theorem StartStep.sound {s t : Start} {a : StartAct} (h : Sound s) (hstep : StartStep s a t) :
    Sound t := by
  cases hstep with
  | main a t hstep => exact hstep.sound h
  | resync a t hstep => exact hstep.sound h
  | cancel => exact h.frame rfl rfl rfl rfl rfl rfl rfl
  | errorCallback err =>
      rcases s.errorCallback_eq err with ⟨flag, fatal, heq, -⟩
      rw [heq]
      exact h.frame rfl rfl rfl rfl rfl rfl rfl
  | closeUpdates => exact h.frame rfl rfl rfl rfl rfl rfl rfl
  | receive v c hbuf hclosed => exact h.frame rfl rfl rfl hclosed rfl rfl rfl

theorem Sound.next {s t : Start} {a : StartAct} (h : Sound s) (hnext : s.next a = some t) :
    Sound t :=
  (h.step hnext).sound h

theorem run_sound {acts : List StartAct} {s : Start} (hrun : Start.new.run acts = some s) :
    Sound s :=
  foldlM_invariant (fun _ _ _ hnext h => h.next hnext) Sound.new hrun

/-! ## Behind the close of `m.events` -/

/-- The events that were delivered on the channel, in order. -/
def Start.sent (s : Start) : List Event := s.received ++ s.events.buf

/-- Both goroutines are gone. -/
structure Finished (s : Start) : Prop where
  main : ∃ err, s.main = .returned err
  resync : s.resync = none ∨ s.resync = some .exited

theorem Sound.finished {s : Start} (h : Sound s) (hclosed : s.events.closed = true) :
    Finished s := by
  rw [h.events] at hclosed
  constructor
  · cases hmain : s.main with
    | returned err => exact ⟨err, rfl⟩
    | _ => simp [hmain, StartPc.hasReturned] at hclosed
  · exact h.joined (StartPc.pastJoin_of_hasReturned hclosed)

theorem Finished.step {s t : Start} {a : StartAct} (h : Finished s) (hstep : StartStep s a t) :
    Finished t ∧ t.known = s.known ∧ t.found = s.found ∧ t.sent = s.sent := by
  rcases h with ⟨⟨err, hmain⟩, hresync⟩
  cases hstep with
  | main a t hstep => cases hstep <;> simp_all
  | resync a t hstep => cases hstep <;> simp_all
  | cancel => exact ⟨⟨⟨err, hmain⟩, hresync⟩, rfl, rfl, rfl⟩
  | errorCallback e =>
      rcases s.errorCallback_eq e with ⟨flag, fatal, heq, -⟩
      rw [heq]
      exact ⟨⟨⟨err, hmain⟩, hresync⟩, rfl, rfl, rfl⟩
  | closeUpdates => exact ⟨⟨⟨err, hmain⟩, hresync⟩, rfl, rfl, rfl⟩
  | receive v c hbuf hclosed =>
      refine ⟨⟨⟨err, hmain⟩, hresync⟩, rfl, rfl, ?_⟩
      simp [Start.sent, hbuf]

/-- No run sends on a closed channel or closes one twice.  When `m.events` is closed both goroutines
are gone, and behind that the consumer finds what was sent before and nothing else. -/
theorem events_closed_last (acts : List StartAct) (s : Start)
    (hrun : Start.new.run acts = some s) :
    s.panicked = none ∧
      (s.events.closed = true → Finished s ∧
        ∀ acts' t, s.run acts' = some t →
          t.known = s.known ∧ t.found = s.found ∧
            t.received ++ t.events.buf = s.received ++ s.events.buf) := by
  have hsound : Sound s := run_sound hrun
  refine ⟨hsound.panicked, fun hclosed => ?_⟩
  have hfinished : Finished s := hsound.finished hclosed
  refine ⟨hfinished, fun acts' t hrun' => ?_⟩
  let Inv := fun t : Start => Sound t ∧ Finished t ∧ t.known = s.known ∧ t.found = s.found ∧
    t.sent = s.sent
  have hstep : ∀ t a u, t.next a = some u → Inv t → Inv u := by
    rintro t a u hnext ⟨ht, hdone, hknown, hfound, hsent⟩
    rcases hdone.step (ht.step hnext) with ⟨hdone', hknown', hfound', hsent'⟩
    exact ⟨ht.next hnext, hdone', hknown'.trans hknown, hfound'.trans hfound, hsent'.trans hsent⟩
  have h : Inv t := foldlM_invariant hstep ⟨hsound, hfinished, rfl, rfl, rfl⟩ hrun'
  exact h.2.2

/-- A veth appears and its event is received; then the context is canceled. -/
def vethRun : List StartAct :=
  [.main (.subscribe none), .main (.update (vethUpdate rtmNewlink)), .main .send, .receive, .cancel,
    .main .ctxDone, .main .closeStop, .resync .quit, .main .join, .main .closeDone,
    .main .closeEvents]

def vethEvent : Event := ⟨.add, 7, veth⟩

def vethEnd : Start where
  known := (∅ : Known).insert 7 veth
  events := { Chan.make Event 32 with closed := true }
  done := { Chan.make Unit 0 with closed := true }
  stopResync := { Chan.make Unit 0 with closed := true }
  resyncDone := { Chan.make Unit 0 with closed := true }
  updatesClosed := false
  lastFatalErr := none
  dumpInterrupted := false
  canceled := true
  main := .returned none
  resync := some .exited
  panicked := none
  found := [vethEvent]
  received := [vethEvent]
  dropped := []

theorem run_vethRun : Start.new.run vethRun = some vethEnd := rfl

theorem veth_events_closed_last : vethEnd.panicked = none ∧ Finished vethEnd :=
  have h := events_closed_last vethRun vethEnd run_vethRun
  ⟨h.1, (h.2 rfl).1⟩

end DnsGateway.Netlinkmon
