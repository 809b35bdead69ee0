import Std.Data.HashMap
import SbfMachine.Syscall.Builtin

/-!
# The registry of system calls

Which system calls a program can make is decided by a registry: a table from the hash of a name
to the name and what it does. The first entry of a hash stays; another one is refused.

## Main definitions

- `Registry` — the table
- `Registry.register`, `Registry.registerBuiltin` — adding a system call
- `Registry.handler?`, `Registry.name?`, `Registry.contains` — looking one up
- `Registry.dispatch` — making a call
-/

namespace SbfMachine

structure Registration where
  name : String
  handler : Handler

/-- The system calls that a program can make, by hash. -/
structure Registry where
  entries : Std.HashMap UInt32 Registration

namespace Registry

def empty : Registry where
  entries := ∅

/-- Adds a system call; also returns its hash. -/
def register (registry : Registry) (name : String) (handler : Handler) :
    Except DuplicateSyscall (UInt32 × Registry) :=
  let hash := CallHash.ofName name
  if registry.entries.contains hash then .error { name, hash }
  else .ok (hash, { entries := registry.entries.insert hash { name, handler } })

/-- Adds a system call of the machine under its own name. -/
def registerBuiltin (registry : Registry) (builtin : Builtin) :
    Except DuplicateSyscall (UInt32 × Registry) :=
  registry.register builtin.name builtin.invoke

/-- The registry of all builtin system calls. -/
def withBuiltins : Registry where
  entries := Builtin.all.foldl (fun entries builtin =>
    entries.insert builtin.hash { name := builtin.name, handler := builtin.invoke }) ∅

def contains (registry : Registry) (hash : UInt32) : Bool :=
  registry.entries.contains hash

def name? (registry : Registry) (hash : UInt32) : Option String :=
  registry.entries[hash]?.map (·.name)

/-- What the system call with the given hash does. -/
def handler? (registry : Registry) (hash : UInt32) : Option Handler :=
  registry.entries[hash]?.map (·.handler)

def size (registry : Registry) : Nat :=
  registry.entries.size

def isEmpty (registry : Registry) : Bool :=
  registry.entries.isEmpty

/-- Makes the call with the given hash, if it is registered. -/
def dispatch (registry : Registry) (hash : UInt32) (arguments : Arguments) (context : Context) :
    Option (EStateM.Result Fault Context UInt64) :=
  match registry.handler? hash with
  | none => none
  | some handler => some (handler arguments context)

/-- The names of all registered system calls, in order. -/
def names (registry : Registry) : List String :=
  (registry.entries.toList.map fun (_, registration) => registration.name).mergeSort

/-- The registry as a record of its names. -/
def describe (registry : Registry) : String :=
  "SyscallRegistry \x7b syscalls: [" ++ ", ".intercalate (registry.names.map Text.quote) ++ "] \x7d"

end Registry

end SbfMachine
