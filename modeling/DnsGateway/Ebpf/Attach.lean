import DnsGateway.Reasoning.HashTable

/-!
# TCX attachments (`internal/ebpf/attach.go`)

An open link holds one program on one side of an interface.  `AttachManager` tracks the two links of
each interface it has attached to.  The kernel keeps every table of open links it has had, so that a
statement about them covers the points between the two calls of an operation.
-/

namespace DnsGateway.Ebpf

open DnsGateway.Reasoning

/-! ## Links -/

/-- `AttachTCXIngress` and `AttachTCXEgress`. -/
inductive Hook where
  | ingress
  | egress
  deriving DecidableEq, Repr

/-- The open links: the interface and the side each one holds its program on. -/
abbrev LinkTable := Finmap fun _ : Nat => Int × Hook

structure Kernel where
  -- The number of the next link; numbers are not used again.
  next : Nat
  links : LinkTable
  past : List LinkTable

/-- Every table there has been, the present one first. -/
def Kernel.tables (k : Kernel) : List LinkTable := k.links :: k.past

/-- The calls into the kernel that can fail; no operation makes one of them twice. -/
inductive LinkCall where
  | attachTCX (ifindex : Int) (hook : Hook)
  | close (ifindex : Int) (hook : Hook)
  deriving DecidableEq, Repr

def Kernel.opened (k : Kernel) (ifindex : Int) (hook : Hook) : Kernel where
  next := k.next + 1
  links := k.links.insert k.next (ifindex, hook)
  past := k.tables

def Kernel.closed (k : Kernel) (id : Nat) : Kernel where
  next := k.next
  links := k.links.erase id
  past := k.tables

/-- `link.AttachTCX`. -/
def attachTCX (ok : LinkCall → Bool) (ifindex : Int) (hook : Hook) (k : Kernel) :
    Option Nat × Kernel :=
  if ok (.attachTCX ifindex hook) then (some k.next, k.opened ifindex hook) else (none, k)

/-- `Close` of a link, and whether it succeeded. -/
def closeLink (ok : LinkCall → Bool) (ifindex : Int) (hook : Hook) (id : Nat) (k : Kernel) :
    Bool × Kernel :=
  if ok (.close ifindex hook) then (true, k.closed id) else (false, k)

/-! ## Attachments -/

/-- The links of an interface; `none` is `nil`. -/
structure Attachment where
  ifindex : Int
  ingress : Option Nat
  egress : Option Nat
  deriving DecidableEq, Repr

def Attachment.link (a : Attachment) : Hook → Option Nat
  | .ingress => a.ingress
  | .egress => a.egress

/-- Closing one side of an attachment, with the error of a failing `Close`. -/
def closeSide (ok : LinkCall → Bool) (ifindex : Int) (hook : Hook) (l : Option Nat) (k : Kernel) :
    List Hook × Kernel :=
  match l with
  | none => ([], k)
  | some id =>
      let (closed, k) := closeLink ok ifindex hook id k
      (if closed then [] else [hook], k)

/-- `Attachment.Close`: the sides whose `Close` failed, and what is left. -/
def Attachment.close (ok : LinkCall → Bool) (a : Attachment) (k : Kernel) :
    List Hook × Attachment × Kernel :=
  let (errs, k) := closeSide ok a.ifindex .ingress a.ingress k
  let (errs', k) := closeSide ok a.ifindex .egress a.egress k
  (errs ++ errs', { a with ingress := none, egress := none }, k)

/-- The links an attachment holds, in the order in which `Close` closes them. -/
def Attachment.links (a : Attachment) : List (Int × Hook × Nat) :=
  (a.ingress.toList.map fun id => (a.ifindex, Hook.ingress, id)) ++
    a.egress.toList.map fun id => (a.ifindex, Hook.egress, id)

/-- The error of a side in `Attachment.Close`. -/
def closeError : Hook → String
  | .ingress => "close ingress: %w"
  | .egress => "close egress: %w"

/-- `AttachManager.attachments`, beside the kernel. -/
structure AttachManager where
  attachments : Finmap fun _ : Int => Attachment
  kernel : Kernel

/-- `NewAttachManager`, with no link open. -/
def AttachManager.new : AttachManager := ⟨∅, ⟨0, ∅, []⟩⟩

inductive AttachError where
  | invalidIfindex (ifindex : Int)
  | attachTCX (hook : Hook) (ifindex : Int)
  deriving DecidableEq, Repr

def AttachError.format : AttachError → String
  | invalidIfindex _ => "invalid ifindex %d"
  | attachTCX .ingress _ => "attach TCX ingress on ifindex %d: %w"
  | attachTCX .egress _ => "attach TCX egress on ifindex %d: %w"

/-- `Attach`. -/
def attach (ok : LinkCall → Bool) (ifindex : Int) (m : AttachManager) :
    Option AttachError × AttachManager :=
  if ifindex ≤ 0 then (some (.invalidIfindex ifindex), m)
  else if ifindex ∈ m.attachments then (none, m)
  else
    match attachTCX ok ifindex .ingress m.kernel with
    | (none, k) => (some (.attachTCX .ingress ifindex), { m with kernel := k })
    | (some ingressLink, k) =>
      match attachTCX ok ifindex .egress k with
      | (none, k) =>
          (some (.attachTCX .egress ifindex),
            { m with kernel := (closeLink ok ifindex .ingress ingressLink k).2 })
      | (some egressLink, k) =>
          (none,
            { attachments := m.attachments.insert ifindex
                ⟨ifindex, some ingressLink, some egressLink⟩
              kernel := k })

/-- `Detach`. -/
def detach (ok : LinkCall → Bool) (ifindex : Int) (m : AttachManager) :
    List Hook × AttachManager :=
  match m.attachments.lookup ifindex with
  | none => ([], m)
  | some a =>
      let (errs, _, k) := a.close ok m.kernel
      (errs, { attachments := m.attachments.erase ifindex, kernel := k })

/-- The loop of `DetachAll` over the attachments it has taken out of the map; its errors name the
interface (`"ifindex %d: %w"`). -/
def closeAll (ok : LinkCall → Bool) : List (Int × Attachment) → Kernel →
    List (Int × List Hook) × Kernel
  | [], k => ([], k)
  | (ifindex, a) :: all, k =>
      let (errs, _, k) := a.close ok k
      let (errs', k) := closeAll ok all k
      (if errs = [] then errs' else (ifindex, errs) :: errs', k)

/-- `DetachAll`. -/
def detachAll (ok : LinkCall → Bool) (order : RangeOrder Int Attachment) (m : AttachManager) :
    List (Int × List Hook) × AttachManager :=
  let (errs, k) := closeAll ok (order.visit m.attachments) m.kernel
  (errs, { attachments := ∅, kernel := k })

/-! ## Open links -/

/-- Some link holds a program on that side of the interface. -/
def LinkTable.Holds (t : LinkTable) (ifindex : Int) (hook : Hook) : Prop :=
  ∃ id, t.lookup id = some (ifindex, hook)

/-- No side of an interface has two links. -/
def LinkTable.Single (t : LinkTable) : Prop :=
  ∀ id id' ifindex hook, t.lookup id = some (ifindex, hook) → t.lookup id' = some (ifindex, hook) →
    id = id'

theorem LinkTable.Single.erase {t : LinkTable} (h : t.Single) (id : Nat) :
    LinkTable.Single (t.erase id) :=
  fun x y i hook hx hy => h x y i hook (lookup_erase_some hx).2 (lookup_erase_some hy).2

theorem LinkTable.Single.insert {t : LinkTable} (h : t.Single) (id : Nat) {i : Int} {hook : Hook}
    (hfree : ¬ t.Holds i hook) : LinkTable.Single (t.insert id (i, hook)) := by
  intro x y i' hook' hx hy
  rcases lookup_insert_some hx with ⟨rfl, hv⟩ | ⟨-, hold⟩
  · cases hv
    rcases lookup_insert_some hy with ⟨rfl, -⟩ | ⟨-, hold⟩
    · rfl
    · exact absurd ⟨y, hold⟩ hfree
  · rcases lookup_insert_some hy with ⟨rfl, hv⟩ | ⟨-, hold'⟩
    · cases hv
      exact absurd ⟨x, hold⟩ hfree
    · exact h x y i' hook' hold hold'

/-! ## What the operations can do -/

/-- The ways `Attach` can end. -/
inductive AttachEnd (ok : LinkCall → Bool) (i : Int) (m : AttachManager) :
    Option AttachError × AttachManager → Prop where
  | invalid (h : i ≤ 0) : AttachEnd ok i m (some (.invalidIfindex i), m)
  | already (hpos : 0 < i) (h : i ∈ m.attachments) : AttachEnd ok i m (none, m)
  | ingressFailed (hpos : 0 < i) (hnew : i ∉ m.attachments)
      (hin : ok (.attachTCX i .ingress) = false) :
      AttachEnd ok i m (some (.attachTCX .ingress i), m)
  | egressFailed (hpos : 0 < i) (hnew : i ∉ m.attachments)
      (hin : ok (.attachTCX i .ingress) = true) (heg : ok (.attachTCX i .egress) = false) :
      AttachEnd ok i m (some (.attachTCX .egress i), { m with
        kernel := (closeLink ok i .ingress m.kernel.next (m.kernel.opened i .ingress)).2 })
  | attached (hpos : 0 < i) (hnew : i ∉ m.attachments)
      (hin : ok (.attachTCX i .ingress) = true) (heg : ok (.attachTCX i .egress) = true) :
      AttachEnd ok i m (none, {
        attachments := m.attachments.insert i ⟨i, some m.kernel.next, some (m.kernel.next + 1)⟩
        kernel := (m.kernel.opened i .ingress).opened i .egress })

theorem attach_end (ok : LinkCall → Bool) (i : Int) (m : AttachManager) :
    AttachEnd ok i m (attach ok i m) := by
  unfold attach attachTCX
  by_cases hpos : i ≤ 0
  · rw [if_pos hpos]
    exact .invalid hpos
  · rw [if_neg hpos]
    have hpos : 0 < i := by omega
    by_cases hnew : i ∈ m.attachments
    · rw [if_pos hnew]
      exact .already hpos hnew
    · rw [if_neg hnew]
      cases hin : ok (.attachTCX i .ingress) with
      | false => exact .ingressFailed hpos hnew hin
      | true =>
          cases heg : ok (.attachTCX i .egress) with
          | false => exact .egressFailed hpos hnew hin heg
          | true => exact .attached hpos hnew hin heg

section Closing

variable {ok : LinkCall → Bool} (hclose : ∀ i hook, ok (.close i hook) = true)

include hclose

theorem closeLink_ok (i : Int) (hook : Hook) (id : Nat) (k : Kernel) :
    closeLink ok i hook id k = (true, k.closed id) := by
  unfold closeLink
  rw [if_pos (hclose i hook)]

theorem close_ok {a : Attachment} {x y : Nat} (hx : a.ingress = some x) (hy : a.egress = some y)
    (k : Kernel) : a.close ok k = ([], ⟨a.ifindex, none, none⟩, (k.closed x).closed y) := by
  unfold Attachment.close closeSide
  rw [hx, hy]
  dsimp only
  rw [closeLink_ok hclose, closeLink_ok hclose]
  rfl

end Closing

theorem closeSide_links (ok : LinkCall → Bool) (i : Int) (hook : Hook) (l : Option Nat)
    (k : Kernel) :
    (closeSide ok i hook l k).2 =
      (l.toList.map fun id => (i, hook, id)).foldl
        (fun k x => (closeLink ok x.1 x.2.1 x.2.2 k).2) k := by
  cases l <;> rfl

theorem closeAll_links (ok : LinkCall → Bool) (all : List (Int × Attachment)) (k : Kernel) :
    (closeAll ok all k).2 =
      (all.flatMap fun e => e.2.links).foldl
        (fun k x => (closeLink ok x.1 x.2.1 x.2.2 k).2) k := by
  induction all generalizing k with
  | nil => rfl
  | cons e all ih =>
      rw [List.flatMap_cons, Attachment.links, List.foldl_append, List.foldl_append,
        ← closeSide_links, ← closeSide_links]
      exact ih _

-- Detaching listed attachments one after another closes them as the loop of `DetachAll` does.
theorem detaches_eq_closeAll (ok : LinkCall → Bool) {all : List (Int × Attachment)}
    {m : AttachManager} (hnodup : (all.map Prod.fst).Nodup)
    (hall : ∀ e ∈ all, m.attachments.lookup e.1 = some e.2) :
    (all.map Prod.fst).foldl (fun m i => (detach ok i m).2) m =
      { attachments := (all.map Prod.fst).foldl (fun s i => s.erase i) m.attachments
        kernel := (closeAll ok all m.kernel).2 } := by
  induction all generalizing m with
  | nil => rfl
  | cons e all ih =>
      rw [List.map_cons, List.nodup_cons] at hnodup
      have hhead : (detach ok e.1 m).2 =
          { attachments := m.attachments.erase e.1, kernel := (e.2.close ok m.kernel).2.2 } := by
        rw [detach, hall e List.mem_cons_self]
      rw [List.map_cons, List.foldl_cons, List.foldl_cons, hhead, ih hnodup.2]
      · rfl
      · intro x hx
        have hne : x.1 ≠ e.1 := fun he => hnodup.1 (he ▸ List.mem_map_of_mem hx)
        exact (Finmap.lookup_erase_ne hne).trans (hall x (List.mem_cons_of_mem e hx))

-- `DetachAll` is a `Detach` of every interface.
theorem detachAll_eq_detaches (ok : LinkCall → Bool) (order : RangeOrder Int Attachment)
    (m : AttachManager) :
    (detachAll ok order m).2 =
      ((order.visit m.attachments).map Prod.fst).foldl (fun m i => (detach ok i m).2) m := by
  rw [detaches_eq_closeAll ok (order.nodup _) fun e he => (order.mem_iff _ _ _).mp he,
    order.erase_visited]
  rfl

/-! ## What the manager keeps -/

/-- The tracked interfaces are those with open links, with one link a side, at this and at every
earlier point. -/
structure WellAttached (m : AttachManager) : Prop where
  fresh : ∀ id x, m.kernel.links.lookup id = some x → id < m.kernel.next
  tracked : ∀ i a, m.attachments.lookup i = some a →
    0 < i ∧ ∀ hook, ∃ id, a.link hook = some id ∧ m.kernel.links.lookup id = some (i, hook)
  owned : ∀ id i hook, m.kernel.links.lookup id = some (i, hook) →
    ∃ a, m.attachments.lookup i = some a ∧ a.link hook = some id
  single : ∀ t ∈ m.kernel.tables, LinkTable.Single t

theorem WellAttached.new : WellAttached .new where
  fresh := fun id x h => by cases h
  tracked := fun i a h => by cases h
  owned := fun id i hook h => by cases h
  single := fun t ht => by
    cases List.mem_singleton.mp ht
    intro id id' i hook h
    cases h

theorem WellAttached.holds_iff {m : AttachManager} (h : WellAttached m) (i : Int) (hook : Hook) :
    m.kernel.links.Holds i hook ↔ i ∈ m.attachments := by
  rw [← Finmap.lookup_isSome, Option.isSome_iff_exists]
  constructor
  · rintro ⟨id, hid⟩
    rcases h.owned id i hook hid with ⟨a, ha, -⟩
    exact ⟨a, ha⟩
  · rintro ⟨a, ha⟩
    rcases (h.tracked i a ha).2 hook with ⟨id, -, hid⟩
    exact ⟨id, hid⟩

theorem WellAttached.next_free {m : AttachManager} (h : WellAttached m) :
    m.kernel.links.lookup m.kernel.next = none := by
  cases hx : m.kernel.links.lookup m.kernel.next with
  | none => rfl
  | some x => exact absurd (h.fresh _ x hx) (Nat.lt_irrefl _)

-- A link that is closed behind its opening leaves the table as it was.
theorem WellAttached.openClose {m : AttachManager} (h : WellAttached m) {i : Int} {hook : Hook}
    (hnew : i ∉ m.attachments) :
    WellAttached { m with kernel := (m.kernel.opened i hook).closed m.kernel.next } := by
  have hsame : ((m.kernel.opened i hook).closed m.kernel.next).links = m.kernel.links := by
    show (m.kernel.links.insert m.kernel.next (i, hook)).erase m.kernel.next = _
    rw [erase_insert_self]
    exact erase_eq_self_iff.mpr h.next_free
  constructor
  · intro id x hx
    rw [hsame] at hx
    exact Nat.lt_succ_of_lt (h.fresh id x hx)
  · rw [hsame]
    exact h.tracked
  · rw [hsame]
    exact h.owned
  · have hpresent := h.single m.kernel.links List.mem_cons_self
    have hone := hpresent.insert m.kernel.next fun hh => hnew ((h.holds_iff i hook).mp hh)
    refine List.forall_mem_cons.mpr ⟨?_, List.forall_mem_cons.mpr ⟨hone, h.single⟩⟩
    rw [hsame]
    exact hpresent

theorem WellAttached.attached {m : AttachManager} (h : WellAttached m) {i : Int} (hpos : 0 < i)
    (hnew : i ∉ m.attachments) :
    WellAttached {
      attachments := m.attachments.insert i ⟨i, some m.kernel.next, some (m.kernel.next + 1)⟩
      kernel := (m.kernel.opened i .ingress).opened i .egress } := by
  have hfree : ∀ hook, ¬ m.kernel.links.Holds i hook :=
    fun hook hh => hnew ((h.holds_iff i hook).mp hh)
  -- The two new links, and the old ones with their old numbers.
  have hlookup : ∀ id x,
      ((m.kernel.links.insert m.kernel.next (i, Hook.ingress)).insert (m.kernel.next + 1)
        (i, Hook.egress)).lookup id = some x ↔
      id = m.kernel.next + 1 ∧ x = (i, .egress) ∨ id = m.kernel.next ∧ x = (i, .ingress) ∨
        m.kernel.links.lookup id = some x := by
    have hnext : (m.kernel.links.insert m.kernel.next (i, Hook.ingress)).lookup
        (m.kernel.next + 1) = none := by
      rw [Finmap.lookup_insert_of_ne _ (by omega)]
      cases hx : m.kernel.links.lookup (m.kernel.next + 1) with
      | none => rfl
      | some y => exact absurd (h.fresh _ y hx) (by omega)
    intro id x
    rw [lookup_insert_fresh hnext, lookup_insert_fresh h.next_free]
  constructor
  · intro id x hx
    show id < m.kernel.next + 1 + 1
    rcases (hlookup id x).mp hx with ⟨rfl, -⟩ | ⟨rfl, -⟩ | hold
    · omega
    · omega
    · have hlt := h.fresh id x hold
      omega
  · intro j a ha
    rcases lookup_insert_some ha with ⟨rfl, rfl⟩ | ⟨-, hold⟩
    · refine ⟨hpos, fun hook => ?_⟩
      cases hook with
      | ingress => exact ⟨_, rfl, (hlookup _ _).mpr (Or.inr (Or.inl ⟨rfl, rfl⟩))⟩
      | egress => exact ⟨_, rfl, (hlookup _ _).mpr (Or.inl ⟨rfl, rfl⟩)⟩
    · refine ⟨(h.tracked j a hold).1, fun hook => ?_⟩
      rcases (h.tracked j a hold).2 hook with ⟨id, hlink, hid⟩
      exact ⟨id, hlink, (hlookup _ _).mpr (Or.inr (Or.inr hid))⟩
  · intro id j hook hid
    rcases (hlookup id _).mp hid with ⟨rfl, hx⟩ | ⟨rfl, hx⟩ | hold
    · cases hx
      exact ⟨_, Finmap.lookup_insert _, rfl⟩
    · cases hx
      exact ⟨_, Finmap.lookup_insert _, rfl⟩
    · rcases h.owned id j hook hold with ⟨a, ha, hlink⟩
      have hne : j ≠ i := fun hji => hfree hook ⟨id, hji ▸ hold⟩
      exact ⟨a, (Finmap.lookup_insert_of_ne _ hne).trans ha, hlink⟩
  · have hpresent := h.single m.kernel.links List.mem_cons_self
    have hone := hpresent.insert m.kernel.next (hfree .ingress)
    refine List.forall_mem_cons.mpr ⟨?_, List.forall_mem_cons.mpr ⟨hone, h.single⟩⟩
    apply hone.insert
    rintro ⟨id, hid⟩
    rcases lookup_insert_some hid with ⟨-, hx⟩ | ⟨-, hold⟩
    · cases hx
    · exact hfree .egress ⟨id, hold⟩

-- Dropping an attachment together with its two links.
theorem WellAttached.detached {m : AttachManager} (h : WellAttached m) {i : Int} {a : Attachment}
    {x y : Nat} (ha : m.attachments.lookup i = some a) (hx : a.ingress = some x)
    (hy : a.egress = some y) :
    WellAttached {
      attachments := m.attachments.erase i
      kernel := (m.kernel.closed x).closed y } := by
  have hgone : ∀ {id j hook}, ((m.kernel.links.erase x).erase y).lookup id = some (j, hook) →
      j ≠ i ∧ m.kernel.links.lookup id = some (j, hook) := by
    intro id j hook hid
    rcases lookup_erase_some hid with ⟨hney, hid⟩
    rcases lookup_erase_some hid with ⟨hnex, hid⟩
    refine ⟨?_, hid⟩
    rintro rfl
    rcases h.owned id j hook hid with ⟨b, hb, hlink⟩
    cases hb.symm.trans ha
    cases hook with
    | ingress => exact hnex (Option.some.inj (hlink.symm.trans hx))
    | egress => exact hney (Option.some.inj (hlink.symm.trans hy))
  constructor
  · intro id v hid
    exact h.fresh id v (hgone hid).2
  · intro j b hb
    rcases lookup_erase_some hb with ⟨hne, hb⟩
    refine ⟨(h.tracked j b hb).1, fun hook => ?_⟩
    rcases (h.tracked j b hb).2 hook with ⟨id, hlink, hid⟩
    -- A link of another interface is neither of the two.
    have hother : ∀ hook z, a.link hook = some z → id ≠ z := by
      rintro hook' z hz rfl
      rcases (h.tracked i a ha).2 hook' with ⟨id', hlink', hid'⟩
      cases hlink'.symm.trans hz
      have hpair := Option.some.inj (hid.symm.trans hid')
      exact hne (congrArg Prod.fst hpair)
    refine ⟨id, hlink, ?_⟩
    show ((m.kernel.links.erase x).erase y).lookup id = _
    rw [Finmap.lookup_erase_ne (hother .egress y hy),
      Finmap.lookup_erase_ne (hother .ingress x hx), hid]
  · intro id j hook hid
    rcases hgone hid with ⟨hne, hid⟩
    rcases h.owned id j hook hid with ⟨b, hb, hlink⟩
    exact ⟨b, (Finmap.lookup_erase_ne hne).trans hb, hlink⟩
  · have hone := (h.single m.kernel.links List.mem_cons_self).erase x
    exact List.forall_mem_cons.mpr ⟨hone.erase y, List.forall_mem_cons.mpr ⟨hone, h.single⟩⟩

section Preserved

variable {ok : LinkCall → Bool} (hclose : ∀ i hook, ok (.close i hook) = true)

include hclose

-- `Attach` keeps the manager in order, and tracks the interface behind two successes.
theorem WellAttached.attach {m : AttachManager} (h : WellAttached m) (i : Int) :
    WellAttached (attach ok i m).2 ∧
      ∀ j, j ∈ (attach ok i m).2.attachments ↔ j ∈ m.attachments ∨
        j = i ∧ 0 < i ∧ ok (.attachTCX i .ingress) = true ∧ ok (.attachTCX i .egress) = true := by
  have hend := attach_end ok i m
  generalize Ebpf.attach ok i m = r at hend
  cases hend with
  | invalid hneg =>
      refine ⟨h, fun j => ⟨Or.inl, ?_⟩⟩
      rintro (hj | ⟨-, hpos, -⟩)
      · exact hj
      · omega
  | already hpos hmem =>
      refine ⟨h, fun j => ⟨Or.inl, ?_⟩⟩
      rintro (hj | ⟨rfl, -⟩)
      · exact hj
      · exact hmem
  | ingressFailed hpos hnew hin =>
      refine ⟨h, fun j => ⟨Or.inl, ?_⟩⟩
      rintro (hj | ⟨-, -, hin', -⟩)
      · exact hj
      · rw [hin] at hin'
        cases hin'
  | egressFailed hpos hnew hin heg =>
      rw [closeLink_ok hclose]
      refine ⟨h.openClose hnew, fun j => ⟨Or.inl, ?_⟩⟩
      rintro (hj | ⟨-, -, -, heg'⟩)
      · exact hj
      · rw [heg] at heg'
        cases heg'
  | attached hpos hnew hin heg =>
      refine ⟨h.attached hpos hnew, fun j => ?_⟩
      rw [Finmap.mem_insert, or_comm]
      exact or_congr_right ⟨fun hj => ⟨hj, hpos, hin, heg⟩, fun hj => hj.1⟩

theorem WellAttached.detach {m : AttachManager} (h : WellAttached m) (i : Int) :
    WellAttached (detach ok i m).2 ∧
      ∀ j, j ∈ (detach ok i m).2.attachments ↔ j ∈ m.attachments ∧ j ≠ i := by
  unfold Ebpf.detach
  cases ha : m.attachments.lookup i with
  | none =>
      refine ⟨h, fun j => ⟨fun hj => ⟨hj, ?_⟩, And.left⟩⟩
      rintro rfl
      exact Finmap.lookup_eq_none.mp ha hj
  | some a =>
      rcases (h.tracked i a ha).2 .ingress with ⟨x, hx, -⟩
      rcases (h.tracked i a ha).2 .egress with ⟨y, hy, -⟩
      dsimp only
      rw [close_ok hclose hx hy]
      refine ⟨h.detached ha hx hy, fun j => ?_⟩
      rw [Finmap.mem_erase, and_comm]

end Preserved

end DnsGateway.Ebpf
