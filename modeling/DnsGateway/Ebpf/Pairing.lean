import DnsGateway.Reasoning.History
import DnsGateway.Ebpf.Attach

/-!
# Ingress and egress program of an interface

A query that is redirected on an interface needs the egress program there for its response.
`Attachment.Close` drops the ingress program first, so detaching never leaves it behind alone;
`Attach` puts the ingress program on first as well, and there it is alone until the second
`AttachTCX` or, when that fails, the `Close` of the first link.
-/

namespace DnsGateway.Ebpf

open DnsGateway.Reasoning

/-! ## Calls of the manager -/

/-- A call, with the answers of the kernel. -/
inductive ManagerCall where
  | attach (ok : LinkCall → Bool) (ifindex : Int)
  | detach (ok : LinkCall → Bool) (ifindex : Int)
  | detachAll (ok : LinkCall → Bool) (order : RangeOrder Int Attachment)

def ManagerCall.ok : ManagerCall → LinkCall → Bool
  | .attach ok _ => ok
  | .detach ok _ => ok
  | .detachAll ok _ => ok

/-- `AttachTCX` may fail, `Close` does not. -/
def ManagerCall.ClosesOk (c : ManagerCall) : Prop := ∀ i hook, c.ok (.close i hook) = true

def AttachManager.step (m : AttachManager) : ManagerCall → AttachManager
  | .attach ok i => (Ebpf.attach ok i m).2
  | .detach ok i => (Ebpf.detach ok i m).2
  | .detachAll ok order => (Ebpf.detachAll ok order m).2

def AttachManager.run (m : AttachManager) (calls : List ManagerCall) : AttachManager :=
  calls.foldl AttachManager.step m

/-- Every interface with the ingress program has the egress program. -/
def LinkTable.Paired (t : LinkTable) : Prop :=
  ∀ i, t.Holds i .ingress → t.Holds i .egress

/-- `t` are the links open between the two `AttachTCX` calls of `c`. -/
def ManagerCall.Midway (m : AttachManager) (t : LinkTable) : ManagerCall → Prop
  | .attach ok i => 0 < i ∧ i ∉ m.attachments ∧ ok (.attachTCX i .ingress) = true ∧
      t = (m.kernel.opened i .ingress).links
  | _ => False

/-! ## Which tables are paired -/

theorem WellAttached.paired {m : AttachManager} (h : WellAttached m) : m.kernel.links.Paired :=
  fun i hi => (h.holds_iff i .egress).mpr ((h.holds_iff i .ingress).mp hi)

-- With the ingress link of a tracked interface closed, the egress links are all still there.
theorem WellAttached.paired_closing {m : AttachManager} (h : WellAttached m) {i : Int} {x : Nat}
    (hx : m.kernel.links.lookup x = some (i, .ingress)) :
    LinkTable.Paired (m.kernel.links.erase x) := by
  rintro j ⟨id, hid⟩
  rcases h.owned id j .ingress (lookup_erase_some hid).2 with ⟨a, ha, -⟩
  rcases (h.tracked j a ha).2 .egress with ⟨y, -, hy⟩
  have hne : y ≠ x := by
    rintro rfl
    cases hx.symm.trans hy
  exact ⟨y, (Finmap.lookup_erase_ne hne).trans hy⟩

-- With the ingress link of another interface opened, that interface has no egress link.
theorem WellAttached.unpaired_opening {m : AttachManager} (h : WellAttached m) {i : Int}
    (hnew : i ∉ m.attachments) : ¬ LinkTable.Paired (m.kernel.opened i .ingress).links := by
  intro hpaired
  rcases hpaired i ⟨m.kernel.next, Finmap.lookup_insert _⟩ with ⟨id, hid⟩
  rcases lookup_insert_some hid with ⟨-, hx⟩ | ⟨-, hold⟩
  · cases hx
  · exact hnew ((h.holds_iff i .egress).mp ⟨id, hold⟩)

/-- `t` has been the table at some point, and not every interface was paired in it. -/
def Kernel.Unpaired (k : Kernel) (t : LinkTable) : Prop := t ∈ k.tables ∧ ¬ t.Paired

-- A call into the kernel adds the table behind it.
theorem Kernel.unpaired_iff {k k' : Kernel} (hpast : k'.past = k.tables) (t : LinkTable) :
    k'.Unpaired t ↔ k.Unpaired t ∨ t = k'.links ∧ ¬ k'.links.Paired := by
  unfold Kernel.Unpaired
  rw [Kernel.tables, hpast, List.mem_cons, or_and_right, or_comm]
  refine or_congr_right (and_congr_right ?_)
  rintro rfl
  exact Iff.rfl

theorem Kernel.unpaired_of_paired {k k' : Kernel} (hpast : k'.past = k.tables)
    (hpaired : k'.links.Paired) (t : LinkTable) : k'.Unpaired t ↔ k.Unpaired t := by
  rw [unpaired_iff hpast, or_iff_left fun h => h.2 hpaired]

/-! ## One call -/

section Steps

variable {ok : LinkCall → Bool} (hclose : ∀ i hook, ok (.close i hook) = true)
  {m : AttachManager} (h : WellAttached m)

include hclose h

-- `Attach` has one unpaired table, the one between its two calls.
theorem attach_unpaired_iff (i : Int) (t : LinkTable) :
    (attach ok i m).2.kernel.Unpaired t ↔
      m.kernel.Unpaired t ∨ (ManagerCall.attach ok i).Midway m t := by
  have hkept := (h.attach hclose i).1.paired
  have hend := attach_end ok i m
  generalize Ebpf.attach ok i m = r at hend hkept
  cases hend with
  | invalid hneg =>
      refine (or_iff_left ?_).symm
      rintro ⟨hpos, -⟩
      omega
  | already hpos hmem =>
      refine (or_iff_left ?_).symm
      rintro ⟨-, hnew, -⟩
      exact hnew hmem
  | ingressFailed hpos hnew hin =>
      refine (or_iff_left ?_).symm
      rintro ⟨-, -, hin', -⟩
      rw [hin] at hin'
      cases hin'
  | egressFailed hpos hnew hin heg =>
      rw [closeLink_ok hclose] at hkept ⊢
      rw [Kernel.unpaired_of_paired rfl hkept, Kernel.unpaired_iff rfl]
      exact or_congr_right ⟨fun ht => ⟨hpos, hnew, hin, ht.1⟩,
        fun ht => ⟨ht.2.2.2, h.unpaired_opening hnew⟩⟩
  | attached hpos hnew hin heg =>
      rw [Kernel.unpaired_of_paired rfl hkept, Kernel.unpaired_iff rfl]
      exact or_congr_right ⟨fun ht => ⟨hpos, hnew, hin, ht.1⟩,
        fun ht => ⟨ht.2.2.2, h.unpaired_opening hnew⟩⟩

-- `Detach` has none.
theorem detach_unpaired_iff (i : Int) (t : LinkTable) :
    (detach ok i m).2.kernel.Unpaired t ↔ m.kernel.Unpaired t := by
  have hkept := (h.detach hclose i).1.paired
  unfold Ebpf.detach at hkept ⊢
  cases ha : m.attachments.lookup i with
  | none => exact Iff.rfl
  | some a =>
      rcases (h.tracked i a ha).2 .ingress with ⟨x, hx, hlink⟩
      rcases (h.tracked i a ha).2 .egress with ⟨y, hy, -⟩
      rw [ha] at hkept
      dsimp only at hkept ⊢
      rw [close_ok hclose hx hy] at hkept ⊢
      rw [Kernel.unpaired_of_paired rfl hkept,
        Kernel.unpaired_of_paired rfl (h.paired_closing hlink)]

theorem WellAttached.detaches (is : List Int) :
    WellAttached (is.foldl (fun m i => (Ebpf.detach ok i m).2) m) := by
  induction is generalizing m with
  | nil => exact h
  | cons i is ih => exact ih (h.detach hclose i).1

theorem detaches_unpaired_iff (is : List Int) (t : LinkTable) :
    (is.foldl (fun m i => (detach ok i m).2) m).kernel.Unpaired t ↔ m.kernel.Unpaired t := by
  induction is generalizing m with
  | nil => exact Iff.rfl
  | cons i is ih => exact (ih (h.detach hclose i).1).trans (detach_unpaired_iff hclose h i t)

end Steps

section Calls

variable {m : AttachManager} (h : WellAttached m) {c : ManagerCall} (hclose : c.ClosesOk)

include h hclose

theorem WellAttached.step : WellAttached (m.step c) := by
  cases c with
  | attach ok i => exact (h.attach hclose i).1
  | detach ok i => exact (h.detach hclose i).1
  | detachAll ok order =>
      show WellAttached (detachAll ok order m).2
      rw [detachAll_eq_detaches]
      exact h.detaches hclose _

theorem step_unpaired_iff (t : LinkTable) :
    (m.step c).kernel.Unpaired t ↔ m.kernel.Unpaired t ∨ c.Midway m t := by
  cases c with
  | attach ok i => exact attach_unpaired_iff hclose h i t
  | detach ok i =>
      exact (detach_unpaired_iff hclose h i t).trans (or_iff_left not_false).symm
  | detachAll ok order =>
      show (detachAll ok order m).2.kernel.Unpaired t ↔ _
      rw [detachAll_eq_detaches]
      exact (detaches_unpaired_iff hclose h _ t).trans (or_iff_left not_false).symm

end Calls

/-! ## Sequences of calls -/

section Run

variable {calls : List ManagerCall} (hclose : ∀ c ∈ calls, c.ClosesOk)

include hclose

theorem run_wellAttached : WellAttached (AttachManager.new.run calls) := by
  induction calls using List.reverseRecOn with
  | nil => exact .new
  | append_singleton past c ih =>
      rw [AttachManager.run, List.foldl_concat]
      have hpast := ih fun x hx => hclose x (List.mem_append_left _ hx)
      exact hpast.step (hclose c List.mem_concat_self)

-- Whenever a call has returned, every interface is paired.
theorem run_paired : (AttachManager.new.run calls).kernel.links.Paired :=
  (run_wellAttached hclose).paired

theorem run_unpaired_iff (t : LinkTable) :
    (AttachManager.new.run calls).kernel.Unpaired t ↔
      ∃ c before after, calls = before ++ c :: after ∧
        c.Midway (AttachManager.new.run before) t := by
  induction calls using List.reverseRecOn with
  | nil =>
      constructor
      · rintro ⟨hmem, hnot⟩
        rw [List.mem_singleton.mp hmem] at hnot
        exact absurd WellAttached.new.paired hnot
      · rintro ⟨c, before, after, hsplit, -⟩
        exact absurd hsplit.symm (List.append_ne_nil_of_right_ne_nil _ (List.cons_ne_nil _ _))
  | append_singleton past c ih =>
      have hpast : ∀ x ∈ past, x.ClosesOk := fun x hx => hclose x (List.mem_append_left _ hx)
      have hc : c.ClosesOk := hclose c List.mem_concat_self
      -- The new call is the last one, or the split is inside the past ones.
      have hsplit := fun c' : ManagerCall => exists_split_snoc past c c'
        fun before _ => c'.Midway (AttachManager.new.run before) t
      simp only [hsplit, exists_or, exists_eq_left']
      rw [AttachManager.run, List.foldl_concat, ← AttachManager.run,
        step_unpaired_iff (run_wellAttached hpast) hc, ih hpast, or_comm]

end Run

-- An interface comes to be tracked in an `Attach` only, which then gets its ingress link.
theorem step_tracked {m : AttachManager} {c : ManagerCall} {i : Int}
    (h : i ∈ (m.step c).attachments) : i ∈ m.attachments ∨ ∃ t, c.Midway m t := by
  cases c with
  | attach ok j =>
      have hend := attach_end ok j m
      change i ∈ (Ebpf.attach ok j m).2.attachments at h
      generalize Ebpf.attach ok j m = r at h hend
      cases hend with
      | attached hpos hnew hin heg => exact Or.inr ⟨_, hpos, hnew, hin, rfl⟩
      | _ => exact Or.inl h
  | detach ok j =>
      change i ∈ (Ebpf.detach ok j m).2.attachments at h
      unfold Ebpf.detach at h
      split at h
      · exact Or.inl h
      · exact Or.inl (Finmap.mem_erase.mp h).2
  | detachAll ok order => exact absurd h Finmap.notMem_empty

theorem run_tracked {calls : List ManagerCall} {i : Int}
    (h : i ∈ (AttachManager.new.run calls).attachments) :
    ∃ c before after t, calls = before ++ c :: after ∧
      c.Midway (AttachManager.new.run before) t := by
  induction calls using List.reverseRecOn with
  | nil => exact absurd h Finmap.notMem_empty
  | append_singleton past c ih =>
      rw [AttachManager.run, List.foldl_concat] at h
      rcases step_tracked h with hpast | ⟨t, hmid⟩
      · rcases ih hpast with ⟨c', before, after, t, rfl, hmid⟩
        exact ⟨c', before, after ++ [c], t, by simp, hmid⟩
      · exact ⟨c, past, [], t, rfl, hmid⟩

/-- The points at which an interface has the ingress program and not the egress program are those
between the two `AttachTCX` calls of an `Attach` whose first one succeeded. -/
theorem ingress_alone_iff {calls : List ManagerCall} (hclose : ∀ c ∈ calls, c.ClosesOk)
    (t : LinkTable) :
    (t ∈ (AttachManager.new.run calls).kernel.tables ∧
        ∃ i, t.Holds i .ingress ∧ ¬ t.Holds i .egress) ↔
      ∃ c before after, calls = before ++ c :: after ∧
        c.Midway (AttachManager.new.run before) t := by
  have hnot : (∃ i, t.Holds i .ingress ∧ ¬ t.Holds i .egress) ↔ ¬ t.Paired := by
    rw [LinkTable.Paired, not_forall]
    exact exists_congr fun i => Classical.not_imp.symm
  rw [hnot]
  exact run_unpaired_iff hclose t

-- Between the two closes of a `Detach` the egress program is alone, and no interface is worse off.
theorem egress_alone_in_detach :
    ∃ t ∈ (AttachManager.new.run
        [.attach (fun _ => true) 7, .detach (fun _ => true) 7]).kernel.tables,
      t.Holds 7 .egress ∧ ¬ t.Holds 7 .ingress ∧
        ¬ ∃ i, t.Holds i .ingress ∧ ¬ t.Holds i .egress := by
  let calls : List ManagerCall := [.attach (fun _ => true) 7, .detach (fun _ => true) 7]
  let t : LinkTable := ((AttachManager.new.kernel.opened 7 .ingress).opened 7 .egress).links.erase 0
  have hclose : ∀ c ∈ calls, c.ClosesOk := by
    intro c hc i hook
    simp only [calls, List.mem_cons, List.not_mem_nil, or_false] at hc
    rcases hc with rfl | rfl <;> rfl
  have hmem : t ∈ (AttachManager.new.run calls).kernel.tables :=
    List.mem_cons_of_mem _ List.mem_cons_self
  have hegress : t.Holds 7 .egress := ⟨1, rfl⟩
  refine ⟨t, hmem, hegress, ?_, fun halone => ?_⟩
  · rintro ⟨id, hid⟩
    rcases lookup_erase_some hid with ⟨hne, hid⟩
    rcases lookup_insert_some hid with ⟨-, hx⟩ | ⟨-, hid⟩
    · cases hx
    · rcases lookup_insert_some hid with ⟨hzero, -⟩ | ⟨-, hnone⟩
      · exact hne hzero
      · cases hnone
  · -- The only `Attach` was midway with the ingress link alone.
    rcases (ingress_alone_iff hclose t).mp ⟨hmem, halone⟩ with ⟨c, before, after, hsplit, hmid⟩
    rcases before with _ | ⟨x, _ | ⟨y, before⟩⟩
    · rw [← (List.cons.inj hsplit).1] at hmid
      rw [hmid.2.2.2] at hegress
      rcases hegress with ⟨id, hid⟩
      rcases lookup_insert_some hid with ⟨-, hx⟩ | ⟨-, hnone⟩
      · cases hx
      · cases hnone
    · rw [← (List.cons.inj (List.cons.inj hsplit).2).1] at hmid
      exact hmid
    · simp [calls] at hsplit

-- An `Attach` whose calls all succeed passes through a table with the ingress program alone.
theorem ingress_alone_in_attach :
    ∃ t ∈ (AttachManager.new.run [.attach (fun _ => true) 7]).kernel.tables,
      t.Holds 7 .ingress ∧ ¬ t.Holds 7 .egress := by
  refine ⟨_, List.mem_cons_of_mem _ List.mem_cons_self, ⟨0, Finmap.lookup_insert _⟩, ?_⟩
  rintro ⟨id, hid⟩
  rcases lookup_insert_some hid with ⟨-, hx⟩ | ⟨-, hold⟩
  · cases hx
  · cases hold

/-- Over a whole sequence of calls no interface ever has the ingress program alone exactly when no
`Attach` for a valid interface gets its ingress link, that is, when nothing is ever attached. -/
theorem always_paired_iff {calls : List ManagerCall} (hclose : ∀ c ∈ calls, c.ClosesOk) :
    (∀ t ∈ (AttachManager.new.run calls).kernel.tables, t.Paired) ↔
      ∀ ok i, .attach ok i ∈ calls → 0 < i → ok (.attachTCX i .ingress) = false := by
  constructor
  · intro hpaired ok i hmem hpos
    by_contra hin
    rw [Bool.not_eq_false] at hin
    have hmid : ∃ c before after t, calls = before ++ c :: after ∧
        c.Midway (AttachManager.new.run before) t := by
      rcases List.append_of_mem hmem with ⟨before, after, rfl⟩
      by_cases hnew : i ∈ (AttachManager.new.run before).attachments
      · -- It is tracked already, so an earlier `Attach` got an ingress link.
        rcases run_tracked hnew with ⟨c, past, next, t, rfl, hmid⟩
        exact ⟨c, past, next ++ .attach ok i :: after, t, by simp, hmid⟩
      · exact ⟨_, before, after, _, rfl, hpos, hnew, hin, rfl⟩
    rcases hmid with ⟨c, before, after, t, hsplit, hmid⟩
    rcases (run_unpaired_iff hclose t).mpr ⟨c, before, after, hsplit, hmid⟩ with ⟨ht, hnot⟩
    exact hnot (hpaired t ht)
  · intro hrefused t ht
    by_contra hnot
    rcases (run_unpaired_iff hclose t).mp ⟨ht, hnot⟩ with ⟨c, before, after, rfl, hmid⟩
    cases c with
    | attach ok i =>
        have hin := hrefused ok i (by simp) hmid.1
        rw [hmid.2.2.1] at hin
        cases hin
    | detach ok i => exact hmid
    | detachAll ok order => exact hmid

/-- Every call succeeds, apart from an `AttachTCX` of the ingress program. -/
def ingressRefused : LinkCall → Bool
  | .attachTCX _ .ingress => false
  | _ => true

theorem refused_always_paired :
    (AttachManager.new.run [.attach ingressRefused 7, .attach (fun _ => true) 0,
      .detach ingressRefused 7]).attachments = ∅ ∧
    ∀ t ∈ (AttachManager.new.run [.attach ingressRefused 7, .attach (fun _ => true) 0,
      .detach ingressRefused 7]).kernel.tables, t.Paired := by
  refine ⟨rfl, (always_paired_iff ?_).mpr ?_⟩
  · intro c hc i hook
    simp only [List.mem_cons, List.not_mem_nil, or_false] at hc
    rcases hc with rfl | rfl | rfl <;> rfl
  · intro ok i hmem hpos
    simp only [List.mem_cons, List.not_mem_nil, or_false, ManagerCall.attach.injEq] at hmem
    rcases hmem with ⟨rfl, rfl⟩ | ⟨-, rfl⟩ | hmem
    · rfl
    · omega
    · cases hmem

end DnsGateway.Ebpf
