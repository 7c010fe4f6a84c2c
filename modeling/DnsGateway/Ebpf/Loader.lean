import DnsGateway.Dnsenc.Wire

/-!
# The pinned maps (`internal/ebpf/loader.go`)

`New` pins every map of the programs by its name in one directory; `Unpin` removes what is there,
and stops at the first file that cannot be removed.
-/

namespace DnsGateway.Ebpf

open DnsGateway.Dnsenc

/-- The pin directory: the names in it, or `none` if it does not exist. -/
abbrev PinDir := Option (List GoString)

/-- The answers of the file system. -/
structure FileOps where
  readDir : Bool
  remove : GoString → Bool
  removeDir : Bool

inductive UnpinError where
  | readDir
  | remove (name : GoString)
  | removeDir
  deriving DecidableEq, Repr

def UnpinError.format : UnpinError → String
  | readDir => "read pin dir %s: %w"
  | remove _ => "remove pinned map %s: %w"
  | removeDir => "remove pin dir %s: %w"

/-- The loop of `Unpin`: the name it stops at, and what is left. -/
def removeAll (ok : GoString → Bool) : List GoString → Option GoString × List GoString
  | [] => (none, [])
  | e :: entries => if ok e then removeAll ok entries else (some e, e :: entries)

/-- `Unpin`. -/
def unpin (ops : FileOps) : PinDir → Option UnpinError × PinDir
  | none => (none, none)
  | some entries =>
      if ops.readDir then
        match removeAll ops.remove entries with
        | (some name, left) => (some (.remove name), some left)
        | (none, left) => if ops.removeDir then (none, none) else (some .removeDir, some left)
      else (some .readDir, some entries)

end DnsGateway.Ebpf
