import Mathlib.Data.Finmap
import DnsGateway.Dnsenc.Wire

/-!
# The link monitor (`internal/netlinkmon/monitor.go`)

The monitor turns link updates into one event for each interface that appears or disappears.  What
is modelled here is the part under its lock: the test and update of `known`, with the event that is
to be sent behind it.
-/

namespace DnsGateway.Netlinkmon

open DnsGateway.Dnsenc

inductive EventType where
  | add
  | remove
  deriving DecidableEq, Repr

structure Event where
  type : EventType
  ifindex : Int
  name : GoString
  deriving DecidableEq, Repr

/-- The fields of `netlink.LinkAttrs` that are read. -/
structure LinkAttrs where
  index : Int
  name : GoString

/-- `netlink.Link`: its kind, and its attributes unless they are `nil`. -/
structure Link where
  type : GoString
  attrs : Option LinkAttrs

def rtmNewlink : UInt16 := 16
def rtmDellink : UInt16 := 17

/-- `netlink.LinkUpdate`; `none` is a `nil` link. -/
structure LinkUpdate where
  headerType : UInt16
  link : Option Link

/-- `"veth"`. -/
def veth : GoString := [118, 101, 116, 104]

abbrev Known := Finmap fun _ : Int => GoString

/-- The locked section for a veth that is there; `handle` and the resync loop share it. -/
def Known.appear (known : Known) (attrs : LinkAttrs) : Known × Option Event :=
  if attrs.index ∈ known then (known, none)
  else (known.insert attrs.index attrs.name, some ⟨.add, attrs.index, attrs.name⟩)

/-- The locked section for an interface that is gone. -/
def Known.disappear (known : Known) (ifindex : Int) : Known × Option Event :=
  match known.lookup ifindex with
  | none => (known, none)
  | some name => (known.erase ifindex, some ⟨.remove, ifindex, name⟩)

/-- `handle`, up to `emit`. -/
def handle (u : LinkUpdate) (known : Known) : Known × Option Event :=
  match u.link with
  | none => (known, none)
  | some link =>
    match link.attrs with
    | none => (known, none)
    | some attrs =>
      if u.headerType = rtmNewlink then
        if link.type ≠ veth then (known, none) else known.appear attrs
      else if u.headerType = rtmDellink then known.disappear attrs.index
      else (known, none)

/-- One link of a `LinkList` snapshot in the resync loop, up to `emit`. -/
def resyncLink (link : Link) (known : Known) : Known × Option Event :=
  if link.type ≠ veth then (known, none)
  else
    match link.attrs with
    | none => (known, none)
    | some attrs => known.appear attrs

/-! ## What an update says about an interface -/

/-- `some true` for an `RTM_NEWLINK` of a veth with that index, `some false` for an
`RTM_DELLINK`. -/
def LinkUpdate.mark (i : Int) (u : LinkUpdate) : Option Bool :=
  match u.link with
  | none => none
  | some link =>
    match link.attrs with
    | none => none
    | some attrs =>
      if attrs.index ≠ i then none
      else if u.headerType = rtmNewlink then
        if link.type ≠ veth then none else some true
      else if u.headerType = rtmDellink then some false
      else none

/-- What `handle` makes of an update, by what it says about the one interface it names. -/
inductive Handled (u : LinkUpdate) (known : Known) : Known × Option Event → Prop where
  | ignored (h : ∀ i, u.mark i = none) : Handled u known (known, none)
  | newlink (attrs : LinkAttrs) (h : ∀ i, u.mark i = if attrs.index ≠ i then none else some true) :
      Handled u known (known.appear attrs)
  | dellink (i : Int) (h : ∀ j, u.mark j = if i ≠ j then none else some false) :
      Handled u known (known.disappear i)

theorem handle_handled (u : LinkUpdate) (known : Known) : Handled u known (handle u known) := by
  unfold handle
  split
  · rename_i hlink
    exact .ignored fun i => by simp [LinkUpdate.mark, hlink]
  · rename_i link hlink
    split
    · rename_i hattrs
      exact .ignored fun i => by simp [LinkUpdate.mark, hlink, hattrs]
    · rename_i attrs hattrs
      by_cases hnew : u.headerType = rtmNewlink
      · rw [if_pos hnew]
        by_cases htype : link.type = veth
        · rw [if_neg (not_not_intro htype)]
          exact .newlink attrs fun i => by simp [LinkUpdate.mark, hlink, hattrs, hnew, htype]
        · rw [if_pos htype]
          exact .ignored fun i => by simp [LinkUpdate.mark, hlink, hattrs, hnew, htype]
      · rw [if_neg hnew]
        by_cases hdel : u.headerType = rtmDellink
        · rw [if_pos hdel]
          exact .dellink attrs.index fun i => by
            simp [LinkUpdate.mark, hlink, hattrs, hdel, show rtmDellink ≠ rtmNewlink by decide]
        · rw [if_neg hdel]
          exact .ignored fun i => by simp [LinkUpdate.mark, hlink, hattrs, hnew, hdel]

/-! ## What the locked sections do -/

/-- `known` and the event to send, behind a locked section. -/
inductive Locked (known : Known) : Known × Option Event → Prop where
  | unchanged : Locked known (known, none)
  | added (i : Int) (name : GoString) (h : i ∉ known) :
      Locked known (known.insert i name, some ⟨.add, i, name⟩)
  | removed (i : Int) (name : GoString) (h : i ∈ known) :
      Locked known (known.erase i, some ⟨.remove, i, name⟩)

theorem appear_locked (known : Known) (attrs : LinkAttrs) : Locked known (known.appear attrs) := by
  unfold Known.appear
  by_cases h : attrs.index ∈ known
  · simpa only [h, if_true] using .unchanged
  · simpa only [h, if_false] using .added attrs.index attrs.name h

theorem disappear_locked (known : Known) (i : Int) : Locked known (known.disappear i) := by
  unfold Known.disappear
  cases h : known.lookup i with
  | none => exact .unchanged
  | some name => exact .removed i name (Finmap.lookup_isSome.mp (by rw [h]; rfl))

theorem handle_locked (u : LinkUpdate) (known : Known) : Locked known (handle u known) := by
  have hhandled := handle_handled u known
  generalize handle u known = r at hhandled
  cases hhandled with
  | ignored => exact .unchanged
  | newlink attrs => exact appear_locked known attrs
  | dellink i => exact disappear_locked known i

theorem resyncLink_locked (link : Link) (known : Known) : Locked known (resyncLink link known) := by
  unfold resyncLink
  split
  · exact .unchanged
  · split
    · exact .unchanged
    · exact appear_locked known _

end DnsGateway.Netlinkmon
