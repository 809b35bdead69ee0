import SbfMachine.Failure

/-!
# Events

What an observer can follow while a program is loaded, verified and run: a sequence of events,
each with a level, a message and named values.

## Main definitions

- `Event` — the events
- `Event.render` — an event as one line of text
-/

namespace SbfMachine

/-- Numbers of relocations of each kind. -/
structure RelocationCounts where
  calls : Nat
  abs64 : Nat
  relative : Nat
  functions : Nat
  syscalls : Nat
  deriving DecidableEq

inductive Event
  | verificationFailed (error : VerifyError)
  | programLoaded (textSize imageSize functions entryPc : Nat) (sbfV2 : Bool)
  | relocationsApplied (counts : RelocationCounts)
  /-- An instruction was fetched and paid for. -/
  | step (pc : Nat) (instruction : String)
  | programExited (value used : UInt64)
  | programFaulted (pc : Nat) (fault : Fault) (used : UInt64)
  /-- The program added a line to its log. -/
  | logged (line : String)

namespace Event

/-- A slot number that need not be there. -/
def optionalPc : Option Nat → String
  | none => "None"
  | some pc => s!"Some({pc})"

def render : Event → String
  | .verificationFailed error =>
    s!"DEBUG verification failed pc={optionalPc error.pc?} err={error.message}"
  | .programLoaded textSize imageSize functions entryPc sbfV2 =>
    s!"DEBUG loaded program text_len={textSize} image_len={imageSize} " ++
      s!"functions={functions} entry_pc={entryPc} sbf_v2={sbfV2}"
  | .relocationsApplied counts =>
    s!"DEBUG applied relocations calls={counts.calls} abs64={counts.abs64} " ++
      s!"relative={counts.relative} functions={counts.functions} syscalls={counts.syscalls}"
  | .step pc instruction => s!"TRACE step pc={pc} insn={instruction}"
  | .programExited value used =>
    s!"DEBUG program exited ret={value.toNat} compute_used={used.toNat}"
  | .programFaulted pc fault used =>
    s!"DEBUG program faulted pc={pc} fault={fault.message} compute_used={used.toNat}"
  | .logged line => s!"DEBUG {line}"

/-- The events of a verification: a rejection is reported, success is silent. -/
def ofVerification : Except VerifyError Unit → List Event
  | .ok () => []
  | .error error => [.verificationFailed error]

/-- The events of a log that has grown from `before` to `after`. -/
def ofLog (before after : Array String) : List Event :=
  (after.toList.drop before.size).map .logged

end Event

end SbfMachine
