import DnsGateway.Ebpf.Attach

/-!
# Links whose `Close` fails (`internal/ebpf/attach.go`)

`Detach` and `DetachAll` forget an attachment before they close its links, and `Attach` drops the
error of the one `Close` it makes.  A link whose `Close` fails is therefore open and held by
nobody.
-/

namespace DnsGateway.Ebpf

open DnsGateway.Reasoning

/-! ## The open links, by who holds them -/

/-- The links that are open are those held and those lost, and no link is both. -/
structure Ledger (k : Kernel) (held : Int → Hook → Nat → Prop) (lost : List Nat) : Prop where
  fresh : ∀ id x, k.links.lookup id = some x → id < k.next
  opened : ∀ i hook id, held i hook id → k.links.lookup id = some (i, hook)
  covered : ∀ id x, k.links.lookup id = some x → held x.1 x.2 id ∨ id ∈ lost
  stays : ∀ id ∈ lost, ∃ x, k.links.lookup id = some x
  apart : ∀ i hook id, held i hook id → id ∉ lost

/-- The link, if its `Close` fails. -/
def failedClose (ok : LinkCall → Bool) (x : Int × Hook × Nat) : List Nat :=
  if ok (.close x.1 x.2.1) then [] else [x.2.2]

/-- Closing links one after the other. -/
def closeLinks (ok : LinkCall → Bool) (todo : List (Int × Hook × Nat)) (k : Kernel) : Kernel :=
  todo.foldl (fun k x => (closeLink ok x.1 x.2.1 x.2.2 k).2) k

section Ledger

variable {k : Kernel} {held : Int → Hook → Nat → Prop} {lost : List Nat} (h : Ledger k held lost)

include h

theorem Ledger.congr {held' : Int → Hook → Nat → Prop}
    (hiff : ∀ i hook id, held' i hook id ↔ held i hook id) : Ledger k held' lost where
  fresh := h.fresh
  opened := fun i hook id hid => h.opened i hook id ((hiff i hook id).mp hid)
  covered := fun id x hx => (h.covered id x hx).imp_left (hiff _ _ _).mpr
  stays := h.stays
  apart := fun i hook id hid => h.apart i hook id ((hiff i hook id).mp hid)

theorem Ledger.next_free : k.links.lookup k.next = none := by
  cases hx : k.links.lookup k.next with
  | none => rfl
  | some x => exact absurd (h.fresh _ x hx) (Nat.lt_irrefl _)

theorem Ledger.open (i : Int) (hook : Hook) :
    Ledger (k.opened i hook) (fun j hk id => held j hk id ∨ j = i ∧ hk = hook ∧ id = k.next)
      lost := by
  have hlookup : ∀ id x, (k.opened i hook).links.lookup id = some x ↔
      id = k.next ∧ x = (i, hook) ∨ k.links.lookup id = some x :=
    fun id x => lookup_insert_fresh h.next_free
  constructor
  · intro id x hx
    show id < k.next + 1
    rcases (hlookup id x).mp hx with ⟨rfl, -⟩ | hold
    · omega
    · have hlt := h.fresh id x hold
      omega
  · rintro j hk id (hid | ⟨rfl, rfl, rfl⟩)
    · exact (hlookup _ _).mpr (Or.inr (h.opened j hk id hid))
    · exact (hlookup _ _).mpr (Or.inl ⟨rfl, rfl⟩)
  · intro id x hx
    rcases (hlookup id x).mp hx with ⟨rfl, rfl⟩ | hold
    · exact Or.inl (Or.inr ⟨rfl, rfl, rfl⟩)
    · exact (h.covered id x hold).imp_left Or.inl
  · intro id hid
    rcases h.stays id hid with ⟨x, hx⟩
    exact ⟨x, (hlookup _ _).mpr (Or.inr hx)⟩
  · rintro j hk id (hid | ⟨-, -, rfl⟩)
    · exact h.apart j hk id hid
    · intro hlost
      rcases h.stays _ hlost with ⟨x, hx⟩
      rw [h.next_free] at hx
      cases hx

theorem Ledger.close (ok : LinkCall → Bool) {i : Int} {hook : Hook} {id : Nat}
    (hid : held i hook id) :
    Ledger (closeLink ok i hook id k).2 (fun j hk x => held j hk x ∧ x ≠ id)
      (lost ++ failedClose ok (i, hook, id)) := by
  unfold closeLink failedClose
  dsimp only
  cases ok (.close i hook) with
  | true =>
      rw [if_pos rfl, if_pos rfl, List.append_nil]
      have hlost : ∀ y ∈ lost, y ≠ id := fun y hy hyid => h.apart i hook id hid (hyid ▸ hy)
      constructor
      · intro y x hx
        exact h.fresh y x (lookup_erase_some hx).2
      · rintro j hk y ⟨hy, hne⟩
        exact (Finmap.lookup_erase_ne hne).trans (h.opened j hk y hy)
      · intro y x hx
        rcases lookup_erase_some hx with ⟨hne, hold⟩
        exact (h.covered y x hold).imp_left fun hy => ⟨hy, hne⟩
      · intro y hy
        rcases h.stays y hy with ⟨x, hx⟩
        exact ⟨x, (Finmap.lookup_erase_ne (hlost y hy)).trans hx⟩
      · exact fun j hk y hy => h.apart j hk y hy.1
  | false =>
      rw [if_neg Bool.false_ne_true, if_neg Bool.false_ne_true]
      constructor
      · exact h.fresh
      · exact fun j hk y hy => h.opened j hk y hy.1
      · intro y x hx
        rw [List.mem_append, List.mem_singleton]
        by_cases hy : y = id
        · exact Or.inr (Or.inr hy)
        · rcases h.covered y x hx with hheld | hlost
          · exact Or.inl ⟨hheld, hy⟩
          · exact Or.inr (Or.inl hlost)
      · intro y hy
        rcases List.mem_append.mp hy with hlost | hnew
        · exact h.stays y hlost
        · rw [List.mem_singleton.mp hnew]
          exact ⟨_, h.opened i hook id hid⟩
      · rintro j hk y ⟨hy, hne⟩ hmem
        rcases List.mem_append.mp hmem with hlost | hnew
        · exact h.apart j hk y hy hlost
        · exact hne (List.mem_singleton.mp hnew)

end Ledger

theorem Ledger.closeLinks {k : Kernel} {held : Int → Hook → Nat → Prop} {lost : List Nat}
    (h : Ledger k held lost) (ok : LinkCall → Bool) {todo : List (Int × Hook × Nat)}
    (htodo : ∀ x ∈ todo, held x.1 x.2.1 x.2.2) (hnodup : (todo.map fun x => x.2.2).Nodup) :
    Ledger (Ebpf.closeLinks ok todo k)
      (fun j hk id => held j hk id ∧ id ∉ todo.map fun x => x.2.2)
      (lost ++ todo.flatMap (failedClose ok)) := by
  induction todo generalizing k held lost with
  | nil =>
      rw [List.flatMap_nil, List.append_nil]
      exact h.congr (by simp)
  | cons x todo ih =>
      rw [List.map_cons, List.nodup_cons] at hnodup
      rw [List.forall_mem_cons] at htodo
      rw [List.flatMap_cons, ← List.append_assoc]
      have hrest : ∀ y ∈ todo, held y.1 y.2.1 y.2.2 ∧ y.2.2 ≠ x.2.2 := fun y hy =>
        ⟨htodo.2 y hy, fun heq => hnodup.1 (heq ▸ List.mem_map_of_mem hy)⟩
      apply (ih (h.close ok htodo.1) hrest hnodup.2).congr
      intro j hk id
      rw [List.map_cons, List.mem_cons, not_or, and_assoc]

/-! ## What the manager holds -/

def AttachManager.Holds (m : AttachManager) (i : Int) (hook : Hook) (id : Nat) : Prop :=
  ∃ a, m.attachments.lookup i = some a ∧ a.link hook = some id

/-- An attachment is filed under its interface, with a link on each side. -/
def AttachManager.Filed (m : AttachManager) : Prop :=
  ∀ i a, m.attachments.lookup i = some a →
    ∃ x y, a = ⟨i, some x, some y⟩

structure Accounted (m : AttachManager) (lost : List Nat) : Prop where
  filed : m.Filed
  ledger : Ledger m.kernel m.Holds lost

theorem Accounted.new : Accounted .new [] where
  filed := fun i a ha => by cases ha
  ledger :=
    { fresh := fun id x hx => by cases hx
      opened := by
        rintro i hook id ⟨a, ha, -⟩
        cases ha
      covered := fun id x hx => by cases hx
      stays := fun id hid => absurd hid List.not_mem_nil
      apart := fun i hook id _ => List.not_mem_nil }

theorem holds_insert {m : AttachManager} {i : Int} (hnew : i ∉ m.attachments) {x y : Nat}
    {k : Kernel} (j : Int) (hook : Hook) (id : Nat) :
    AttachManager.Holds ⟨m.attachments.insert i ⟨i, some x, some y⟩, k⟩ j hook id ↔
      (m.Holds j hook id ∨ j = i ∧ hook = .ingress ∧ id = x) ∨ j = i ∧ hook = .egress ∧ id = y := by
  have hnone : m.attachments.lookup i = none := Finmap.lookup_eq_none.mpr hnew
  unfold AttachManager.Holds
  by_cases hj : j = i
  · subst hj
    rw [Finmap.lookup_insert, hnone]
    cases hook <;> simp [Attachment.link, eq_comm]
  · rw [Finmap.lookup_insert_of_ne _ hj]
    simp [hj]

/-! ## One call -/

/-- The link whose `Close` fails within `Attach`. -/
def attachLoses (ok : LinkCall → Bool) (i : Int) (m : AttachManager) : List Nat :=
  match (attach ok i m).1 with
  | some (.attachTCX .egress _) => failedClose ok (i, .ingress, m.kernel.next)
  | _ => []

/-- The links whose `Close` fails within `Detach`. -/
def detachLoses (ok : LinkCall → Bool) (i : Int) (m : AttachManager) : List Nat :=
  match m.attachments.lookup i with
  | none => []
  | some a => a.links.flatMap (failedClose ok)

theorem Accounted.attach {m : AttachManager} {lost : List Nat} (h : Accounted m lost)
    (ok : LinkCall → Bool) (i : Int) :
    Accounted (Ebpf.attach ok i m).2 (lost ++ attachLoses ok i m) := by
  unfold attachLoses
  have hend := attach_end ok i m
  generalize Ebpf.attach ok i m = r at hend
  cases hend with
  | invalid hneg => simpa using h
  | already hpos hmem => simpa using h
  | ingressFailed hpos hnew hin => simpa using h
  | egressFailed hpos hnew hin heg =>
      refine ⟨h.filed, ?_⟩
      have hclose := (h.ledger.open i .ingress).close ok (Or.inr ⟨rfl, rfl, rfl⟩)
      apply hclose.congr
      intro j hook id
      constructor
      · intro hid
        refine ⟨Or.inl hid, ?_⟩
        have hlt := h.ledger.fresh id _ (h.ledger.opened j hook id hid)
        omega
      · rintro ⟨hid | ⟨-, -, rfl⟩, hne⟩
        · exact hid
        · exact absurd rfl hne
  | attached hpos hnew hin heg =>
      rw [List.append_nil]
      constructor
      · intro j a ha
        rcases lookup_insert_some ha with ⟨rfl, rfl⟩ | ⟨-, hold⟩
        · exact ⟨_, _, rfl⟩
        · exact h.filed j a hold
      · exact ((h.ledger.open i .ingress).open i .egress).congr (holds_insert hnew)

theorem Attachment.mem_links {i : Int} {x y : Nat} {e : Int × Hook × Nat} :
    e ∈ (⟨i, some x, some y⟩ : Attachment).links ↔ e = (i, .ingress, x) ∨ e = (i, .egress, y) := by
  simp [Attachment.links]

-- `Attachment.Close` closes the links of the attachment.
theorem close_closeLinks (ok : LinkCall → Bool) (a : Attachment) (k : Kernel) :
    (a.close ok k).2.2 = closeLinks ok a.links k := by
  have hall := closeAll_links ok [(a.ifindex, a)] k
  simpa [closeAll, closeLinks] using hall

section Detach

variable {m : AttachManager} {lost : List Nat} (h : Accounted m lost)

include h

-- The two links of an interface differ, and no other interface holds them.
theorem Accounted.links_nodup {i : Int} {a : Attachment} (ha : m.attachments.lookup i = some a) :
    (a.links.map fun x => x.2.2).Nodup := by
  rcases h.filed i a ha with ⟨x, y, rfl⟩
  have hx := h.ledger.opened i .ingress x ⟨_, ha, rfl⟩
  have hy := h.ledger.opened i .egress y ⟨_, ha, rfl⟩
  have hne : x ≠ y := by
    rintro rfl
    cases hx.symm.trans hy
  simpa [Attachment.links] using hne

theorem Accounted.holds_links {i : Int} {a : Attachment} (ha : m.attachments.lookup i = some a) :
    ∀ e ∈ a.links, m.Holds e.1 e.2.1 e.2.2 := by
  rcases h.filed i a ha with ⟨x, y, rfl⟩
  intro e he
  rcases Attachment.mem_links.mp he with rfl | rfl
  · exact ⟨_, ha, rfl⟩
  · exact ⟨_, ha, rfl⟩

theorem Accounted.mem_links_of_holds {i : Int} {a : Attachment}
    (ha : m.attachments.lookup i = some a) {hook : Hook} {id : Nat} (hid : m.Holds i hook id) :
    (i, hook, id) ∈ a.links := by
  rcases h.filed i a ha with ⟨x, y, rfl⟩
  rcases hid with ⟨b, hb, hlink⟩
  rw [ha] at hb
  cases hb
  rw [Attachment.mem_links]
  cases hook with
  | ingress =>
      cases hlink
      exact Or.inl rfl
  | egress =>
      cases hlink
      exact Or.inr rfl

theorem Accounted.detach (ok : LinkCall → Bool) (i : Int) :
    Accounted (Ebpf.detach ok i m).2 (lost ++ detachLoses ok i m) := by
  unfold Ebpf.detach detachLoses
  cases ha : m.attachments.lookup i with
  | none => simpa using h
  | some a =>
      dsimp only
      rw [close_closeLinks]
      constructor
      · exact fun j b hb => h.filed j b (lookup_erase_some hb).2
      · have hclosed := h.ledger.closeLinks ok (h.holds_links ha) (h.links_nodup ha)
        apply hclosed.congr
        intro j hook id
        constructor
        · rintro ⟨b, hb, hlink⟩
          rcases lookup_erase_some hb with ⟨hne, hold⟩
          refine ⟨⟨b, hold, hlink⟩, fun hmem => ?_⟩
          rcases List.mem_map.mp hmem with ⟨e, he, rfl⟩
          have hmine := h.ledger.opened _ _ _ (h.holds_links ha e he)
          have htheirs := h.ledger.opened j hook _ ⟨b, hold, hlink⟩
          rcases h.filed i a ha with ⟨x, y, rfl⟩
          rw [htheirs] at hmine
          rcases Attachment.mem_links.mp he with rfl | rfl
          · exact hne (congrArg Prod.fst (Option.some.inj hmine))
          · exact hne (congrArg Prod.fst (Option.some.inj hmine))
        · rintro ⟨hid, hnot⟩
          by_cases hj : j = i
          · subst hj
            exact absurd (List.mem_map_of_mem (h.mem_links_of_holds ha hid)) hnot
          · rcases hid with ⟨b, hb, hlink⟩
            exact ⟨b, (Finmap.lookup_erase_ne hj).trans hb, hlink⟩

/-! ## `DetachAll` -/

omit h in
/-- The links that `DetachAll` closes, in order. -/
def AttachManager.links (m : AttachManager) (order : RangeOrder Int Attachment) :
    List (Int × Hook × Nat) :=
  (order.visit m.attachments).flatMap fun e => e.2.links

theorem Accounted.mem_links_iff (order : RangeOrder Int Attachment) (i : Int) (hook : Hook)
    (id : Nat) : (i, hook, id) ∈ m.links order ↔ m.Holds i hook id := by
  unfold AttachManager.links
  rw [List.mem_flatMap]
  constructor
  · rintro ⟨⟨j, a⟩, hmem, hlink⟩
    exact h.holds_links ((order.mem_iff _ _ _).mp hmem) _ hlink
  · rintro ⟨a, ha, hlink⟩
    exact ⟨(i, a), (order.mem_iff _ _ _).mpr ha, h.mem_links_of_holds ha ⟨a, ha, hlink⟩⟩

theorem Accounted.links_ids_nodup (order : RangeOrder Int Attachment) :
    ((m.links order).map fun x => x.2.2).Nodup := by
  apply List.Nodup.map_on
  · -- A link is open on one side of one interface.
    rintro ⟨i, hook, id⟩ hx ⟨j, hook', id'⟩ hy heq
    have hopen := h.ledger.opened i hook id ((h.mem_links_iff order i hook id).mp hx)
    have hopen' := h.ledger.opened j hook' id' ((h.mem_links_iff order j hook' id').mp hy)
    dsimp only at heq
    subst heq
    cases hopen.symm.trans hopen'
    rfl
  · apply List.nodup_flatMap.mpr
    constructor
    · rintro ⟨i, a⟩ hmem
      exact (h.links_nodup ((order.mem_iff _ _ _).mp hmem)).of_map
    · have hkeys := List.pairwise_map.mp (order.nodup m.attachments)
      apply hkeys.imp_of_mem
      rintro ⟨i, a⟩ ⟨j, b⟩ ha hb hne e hea heb
      rcases h.filed i a ((order.mem_iff _ _ _).mp ha) with ⟨x, y, rfl⟩
      rcases h.filed j b ((order.mem_iff _ _ _).mp hb) with ⟨x', y', rfl⟩
      rcases Attachment.mem_links.mp hea with rfl | rfl <;>
        rcases Attachment.mem_links.mp heb with heq | heq <;>
        exact hne (congrArg (fun e : Int × Hook × Nat => e.1) heq)

end Detach

/-- What `DetachAll` holds while it has the links `todo` to close. -/
structure Detaching (k : Kernel) (todo : List (Int × Hook × Nat)) (lost : List Nat) : Prop where
  nodup : (todo.map fun x => x.2.2).Nodup
  ledger : Ledger k (fun i hook id => (i, hook, id) ∈ todo) lost

theorem Accounted.detachAll {m : AttachManager} {lost : List Nat} (h : Accounted m lost)
    (order : RangeOrder Int Attachment) : Detaching m.kernel (m.links order) lost where
  nodup := h.links_ids_nodup order
  ledger := h.ledger.congr (h.mem_links_iff order)

theorem Detaching.closeNext {k : Kernel} {x : Int × Hook × Nat} {todo : List (Int × Hook × Nat)}
    {lost : List Nat} (h : Detaching k (x :: todo) lost) (ok : LinkCall → Bool) :
    Detaching (closeLink ok x.1 x.2.1 x.2.2 k).2 todo (lost ++ failedClose ok x) := by
  have hnodup := h.nodup
  rw [List.map_cons, List.nodup_cons] at hnodup
  refine ⟨hnodup.2, (h.ledger.close ok List.mem_cons_self).congr ?_⟩
  intro j hook id
  constructor
  · intro hmem
    refine ⟨List.mem_cons_of_mem x hmem, fun heq => hnodup.1 ?_⟩
    exact heq ▸ List.mem_map_of_mem hmem
  · rintro ⟨hmem, hne⟩
    rcases List.mem_cons.mp hmem with rfl | hmem
    · exact absurd rfl hne
    · exact hmem

end DnsGateway.Ebpf
