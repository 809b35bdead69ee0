import SbfMachine.AddressSpace
import SbfMachine.Failure

/-!
# The call stack

Beside the stack memory the machine keeps, out of the program's reach, a frame for every function
that has not returned. A frame knows where its stack memory ends, which registers of its caller it
has to restore and where to go on afterwards. There is always the frame of the entry function.

## Main definitions

- `Frame`, `CallStack` — the frames, the current one apart
- `CallStack.push?`, `CallStack.pop?` — entering and leaving a function
- `CallStack.frames`, `CallStack.depth` — all frames and how many there are
- `CallStack.framePointer` — the end of the current frame
-/

namespace SbfMachine

/-- The registers that a function has to leave as it found them. -/
structure SavedRegisters where
  r6 : UInt64
  r7 : UInt64
  r8 : UInt64
  r9 : UInt64
  deriving DecidableEq

/-- What the machine remembers of a function that has not returned. -/
structure Frame where
  framePointer : UInt64
  saved : SavedRegisters
  /-- The slot to go on at in the caller. -/
  returnPc : Nat
  deriving DecidableEq

/-- The frames of all functions that have not returned. -/
structure CallStack where
  current : Frame
  /-- The frames of its callers, innermost first. -/
  callers : List Frame
  deriving DecidableEq

namespace CallStack

/-- The frame of the entry function, which has no caller. -/
def entryFrame : Frame where
  framePointer := initialFramePointer
  saved := ⟨0, 0, 0, 0⟩
  returnPc := 0

def initial : CallStack where
  current := entryFrame
  callers := []

def depth (stack : CallStack) : Nat :=
  stack.callers.length + 1

def framePointer (stack : CallStack) : UInt64 :=
  stack.current.framePointer

def frames (stack : CallStack) : List Frame :=
  stack.current :: stack.callers

theorem length_frames (stack : CallStack) : stack.frames.length = stack.depth :=
  rfl

/-- The frames are all there is to a call stack. -/
theorem frames_injective {stack other : CallStack} (h : stack.frames = other.frames) :
    stack = other := by
  obtain ⟨current, callers⟩ := stack
  obtain ⟨current', callers'⟩ := other
  obtain ⟨rfl, rfl⟩ := List.cons.inj h
  rfl

/-- Enters a function. Its stack memory lies behind that of the caller and the gap that follows
it; at the greatest depth there is none left. -/
def push? (stack : CallStack) (saved : SavedRegisters) (returnPc : Nat) : Option CallStack :=
  if stack.depth < maxCallDepth then
    some
      { current :=
          { framePointer := stack.framePointer + 2 * UInt64.ofNat frameSize, saved, returnPc }
        callers := stack.current :: stack.callers }
  else none

/-- Entering a function puts a frame on top of the others, unless there are too many. -/
theorem frames_of_push? {stack pushed : CallStack} {saved : SavedRegisters} {returnPc : Nat}
    (h : stack.push? saved returnPc = some pushed) :
    stack.depth < maxCallDepth ∧
      pushed.frames =
        ⟨stack.framePointer + 2 * UInt64.ofNat frameSize, saved, returnPc⟩ :: stack.frames := by
  unfold push? at h
  split at h
  · next room =>
    rw [← Option.some.inj h]
    exact ⟨room, rfl⟩
  · cases h

theorem depth_of_push? {stack pushed : CallStack} {saved : SavedRegisters} {returnPc : Nat}
    (h : stack.push? saved returnPc = some pushed) : pushed.depth = stack.depth + 1 := by
  obtain ⟨_, hframes⟩ := frames_of_push? h
  rw [← length_frames, ← length_frames, hframes]
  rfl

/-- Entering a function fails iff the greatest depth is reached. -/
theorem push?_eq_none_iff {stack : CallStack} {saved : SavedRegisters} {returnPc : Nat} :
    stack.push? saved returnPc = none ↔ maxCallDepth ≤ stack.depth := by
  unfold push?
  split <;> simp <;> omega

/-- Leaves the running function: its frame and the call stack without it. The entry function
cannot be left. -/
def pop? (stack : CallStack) : Option (Frame × CallStack) :=
  match stack.callers with
  | [] => none
  | caller :: callers => some (stack.current, { current := caller, callers })

/-- Leaving a function takes the topmost frame off. -/
theorem frames_of_pop? {stack popped : CallStack} {frame : Frame}
    (h : stack.pop? = some (frame, popped)) : stack.frames = frame :: popped.frames := by
  unfold pop? at h
  split at h
  · cases h
  · next caller callers hcallers =>
    cases h
    rw [frames, hcallers]
    rfl

theorem depth_of_pop? {stack popped : CallStack} {frame : Frame}
    (h : stack.pop? = some (frame, popped)) : popped.depth + 1 = stack.depth := by
  rw [← length_frames, ← length_frames, frames_of_pop? h]
  rfl

/-- Only the entry function cannot be left. -/
theorem pop?_eq_none_iff {stack : CallStack} : stack.pop? = none ↔ stack.depth = 1 := by
  unfold pop? depth
  cases stack.callers <;> simp

end CallStack

end SbfMachine
