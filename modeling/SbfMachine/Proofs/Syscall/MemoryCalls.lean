import SbfMachine.Proofs.Memory.Contents
import SbfMachine.Proofs.Syscall.Failures
import SbfMachine.Proofs.Syscall.Scripts

/-!
# Memory calls

What the system calls that copy, fill and compare memory do to its contents. All that is said here
holds for any pointers and lengths, whether ranges overlap or not, and for empty ranges too: a call
that can be paid for succeeds iff its accesses are granted, what it reads is what memory held before
the call, and if it fails it leaves memory alone.

## Main definitions

- `RangesMeet` — ranges that have an address in common
- `Contents.IsDifference` — the difference of the first bytes in which two ranges differ
- `Syscall.Does` — when a call succeeds, and what it does to memory
- `Compared` — the contents after two ranges have been compared
- `MemoryCalls` — what the memory calls do

## Main statements

- `Contents.IsDifference.swap`, `Contents.IsDifference.order` — the difference tells how two ranges
  are ordered
- `Syscall.Does.slice`, `Syscall.Does.writeSlice` — the rules by which a call is taken apart
- `memoryCalls` — the memory calls do that
-/

namespace SbfMachine

/-- The ranges of `size` bytes from `a` on and from `b` on have an address in common. -/
def RangesMeet (a b size : UInt64) : Prop :=
  ∃ x : Nat, (a.toNat ≤ x ∧ x < a.toNat + size.toNat) ∧ b.toNat ≤ x ∧ x < b.toNat + size.toNat

theorem rangesMeet_iff {a b size : UInt64} :
    RangesMeet a b size ↔ Builtin.distance a b < size := by
  have hdistance : (Builtin.distance a b).toNat = max a.toNat b.toNat - min a.toNat b.toNat := by
    rw [Builtin.distance]
    split
    · next hlt =>
      rw [UInt64.lt_iff_toNat_lt] at hlt
      rw [UInt64.toNat_sub_of_le _ _ (UInt64.le_iff_toNat_le.2 (Nat.le_of_lt hlt))]
      omega
    · next hle =>
      rw [UInt64.lt_iff_toNat_lt] at hle
      rw [UInt64.toNat_sub_of_le _ _ (UInt64.le_iff_toNat_le.2 (Nat.le_of_not_lt hle))]
      omega
  rw [UInt64.lt_iff_toNat_lt, hdistance]
  constructor
  · rintro ⟨x, ha, hb⟩
    omega
  · intro hlt
    exact ⟨max a.toNat b.toNat, by omega, by omega⟩

-- ════════════════════════════════════════════════════════════════════════
-- Differences
-- ════════════════════════════════════════════════════════════════════════

/-- The difference of the first bytes in which the `size` bytes from `a` on and those from `b` on
differ; zero if they do not differ. -/
inductive Contents.IsDifference (contents : Contents) (a b : UInt64) (size : Nat) : Int → Prop
  | equal
      (hsame : ∀ i < size, contents (a + UInt64.ofNat i) = contents (b + UInt64.ofNat i)) :
      IsDifference contents a b size 0
  | first (i : Nat) (left right : UInt8) (hi : i < size)
      (hsame : ∀ j < i, contents (a + UInt64.ofNat j) = contents (b + UInt64.ofNat j))
      (hleft : contents (a + UInt64.ofNat i) = some left)
      (hright : contents (b + UInt64.ofNat i) = some right) (hne : left ≠ right) :
      IsDifference contents a b size (left.toNat - right.toNat)

namespace Contents.IsDifference

variable {contents : Contents} {a b : UInt64} {size : Nat} {difference other : Int}

/-- Exchanging the ranges negates their difference. -/
theorem swap (h : contents.IsDifference a b size difference) :
    contents.IsDifference b a size (-difference) := by
  cases h with
  | equal hsame => exact .equal fun i hi => (hsame i hi).symm
  | first i left right hi hsame hleft hright hne =>
    rw [Int.neg_sub]
    exact .first i right left hi (fun j hj => (hsame j hj).symm) hright hleft hne.symm

theorem unique (h : contents.IsDifference a b size difference)
    (hother : contents.IsDifference a b size other) : difference = other := by
  -- A place where the bytes differ is not one of the places where they do not.
  have hplace {i : Nat} {left right : UInt8} (hleft : contents (a + UInt64.ofNat i) = some left)
      (hright : contents (b + UInt64.ofNat i) = some right) (hne : left ≠ right) :
      contents (a + UInt64.ofNat i) ≠ contents (b + UInt64.ofNat i) := by
    rw [hleft, hright]
    exact fun heq => hne (Option.some.inj heq)
  cases h with
  | equal hsame =>
    cases hother with
    | equal => rfl
    | first i left right hi _ hleft hright hne =>
      exact absurd (hsame i hi) (hplace hleft hright hne)
  | first i left right hi hsame hleft hright hne =>
    cases hother with
    | equal hsame' => exact absurd (hsame' i hi) (hplace hleft hright hne)
    | first j left' right' hj hsame' hleft' hright' hne' =>
      rcases Nat.lt_trichotomy i j with hlt | rfl | hgt
      · exact absurd (hsame' i hlt) (hplace hleft hright hne)
      · rw [hleft] at hleft'
        rw [hright] at hright'
        rw [Option.some.inj hleft', Option.some.inj hright']
      · exact absurd (hsame j hgt) (hplace hleft' hright' hne')

theorem bounds (h : contents.IsDifference a b size difference) :
    -255 ≤ difference ∧ difference ≤ 255 := by
  cases h with
  | equal => decide
  | first i left right =>
    have hleft := left.toNat_lt
    have hright := right.toNat_lt
    omega

end Contents.IsDifference

/-- Of two byte strings that differ, the one with the smaller byte at the first difference comes
first. -/
theorem lt_iff_byteAt_lt {left right : ByteArray} {i : Nat} (hleft : i < left.size)
    (hright : i < right.size) (hsame : ∀ j < i, Bytes.byteAt left j = Bytes.byteAt right j)
    (hne : Bytes.byteAt left i ≠ Bytes.byteAt right i) :
    left.data.toList < right.data.toList ↔ Bytes.byteAt left i < Bytes.byteAt right i := by
  have hget {bytes : ByteArray} {j : Nat} (hj : j < bytes.data.toList.length) :
      bytes.data.toList[j] = Bytes.byteAt bytes j := by
    rw [Bytes.byteAt_of_lt hj, Array.getElem_toList]
    rfl
  rw [List.lt_iff_exists]
  constructor
  · rintro (⟨hshorter, _⟩ | ⟨k, hk, hk', hbefore, hlt⟩)
    · have hi := List.getElem_of_eq hshorter hleft
      rw [List.getElem_take, hget, hget] at hi
      exact absurd hi hne
    · rw [hget, hget] at hlt
      rcases Nat.lt_trichotomy k i with hki | rfl | hik
      · rw [hsame k hki] at hlt
        exact absurd hlt (UInt8.lt_irrefl _)
      · exact hlt
      · have hi := hbefore i hik
        rw [hget, hget] at hi
        exact absurd hi hne
  · intro hlt
    refine .inr ⟨i, hleft, hright, fun j hj => ?_, ?_⟩
    · rw [hget, hget, hsame j hj]
    · rwa [hget, hget]

theorem toInt_byteDifference (left right : UInt8) :
    (left.toUInt32.toInt32 - right.toUInt32.toInt32).toInt = left.toNat - right.toNat := by
  have hvalue (byte : UInt8) : byte.toUInt32.toInt32.toInt = byte.toNat := by
    have hlt := byte.toNat_lt
    rw [Int32.toInt, UInt32.toBitVec_toInt32, BitVec.toInt_eq_toNat_of_lt]
    · simp
    · simp only [UInt32.toNat_toBitVec, UInt8.toNat_toUInt32]
      omega
  have hleft := left.toNat_lt
  have hright := right.toNat_lt
  rw [Int32.toInt_sub, hvalue, hvalue]
  exact Int.bmod_eq_of_le (by omega) (by omega)

/-- Two byte strings are the same from `i` on, as far as both reach, or their difference is that of
the first two bytes that differ. -/
theorem Builtin.firstDifference_cases (left right : ByteArray) (i : Nat) :
    (∀ j, i ≤ j → j < left.size → j < right.size →
        Bytes.byteAt left j = Bytes.byteAt right j) ∧ firstDifference left right i = 0 ∨
      ∃ j, i ≤ j ∧ j < left.size ∧ j < right.size ∧
        (∀ k, i ≤ k → k < j → Bytes.byteAt left k = Bytes.byteAt right k) ∧
        Bytes.byteAt left j ≠ Bytes.byteAt right j ∧
        (firstDifference left right i).toInt =
          (Bytes.byteAt left j).toNat - (Bytes.byteAt right j).toNat := by
  fun_induction firstDifference left right i with
  | case1 i h hsame ih =>
    have hfirst : Bytes.byteAt left i = Bytes.byteAt right i := by
      rw [Bytes.byteAt_of_lt h.1, Bytes.byteAt_of_lt h.2, hsame]
    rcases ih with ⟨hrest, hzero⟩ | ⟨j, hj, hleft, hright, hbefore, hne, hvalue⟩
    · refine .inl ⟨fun j hj hleft hright => ?_, hzero⟩
      rcases Nat.eq_or_lt_of_le hj with rfl | hlater
      · exact hfirst
      · exact hrest j hlater hleft hright
    · refine .inr ⟨j, Nat.le_of_lt hj, hleft, hright, fun k hk hkj => ?_, hne, hvalue⟩
      rcases Nat.eq_or_lt_of_le hk with rfl | hlater
      · exact hfirst
      · exact hbefore k hlater hkj
  | case2 i h hne =>
    refine .inr ⟨i, Nat.le_refl i, h.1, h.2, fun k hk hki => absurd hk (Nat.not_le.2 hki), ?_, ?_⟩
    · rwa [Bytes.byteAt_of_lt h.1, Bytes.byteAt_of_lt h.2]
    · rw [Bytes.byteAt_of_lt h.1, Bytes.byteAt_of_lt h.2]
      exact toInt_byteDifference _ _
  | case3 i h => exact .inl ⟨fun j hj hleft hright => absurd ⟨by omega, by omega⟩ h, rfl⟩

section Reads

variable {memory : Memory} (hfits : memory.FitsRegions) {a b : UInt64} {size : Nat}
  {left right : ByteArray} (hleft : memory.read a size = .ok left)
  (hright : memory.read b size = .ok right)
include hfits hleft hright

/-- The difference of two byte strings is that of the ranges that they have been read from. -/
theorem isDifference_of_read :
    memory.byte?.IsDifference a b size (Builtin.firstDifference left right 0).toInt := by
  have hsize : left.size = size := Memory.size_of_read hleft
  have hsize' : right.size = size := Memory.size_of_read hright
  have hsame {i : Nat} (hi : i < size) (heq : Bytes.byteAt left i = Bytes.byteAt right i) :
      memory.byte? (a + UInt64.ofNat i) = memory.byte? (b + UInt64.ofNat i) := by
    rw [Memory.byte?_of_read hfits hleft hi, Memory.byte?_of_read hfits hright hi, heq]
  rcases Builtin.firstDifference_cases left right 0 with
    ⟨hequal, hzero⟩ | ⟨i, _, hi, _, hbefore, hne, hvalue⟩
  · rw [hzero]
    exact .equal fun i hi => hsame hi (hequal i (Nat.zero_le i) (by omega) (by omega))
  · rw [hvalue]
    rw [hsize] at hi
    exact .first i _ _ hi (fun j hj => hsame (by omega) (hbefore j (Nat.zero_le j) hj))
      (Memory.byte?_of_read hfits hleft hi) (Memory.byte?_of_read hfits hright hi) hne

/-- The difference is zero for the same bytes, and negative if those at `a` come first in the
lexicographic order. -/
theorem Contents.IsDifference.order {difference : Int}
    (h : memory.byte?.IsDifference a b size difference) :
    (difference = 0 ↔ left = right) ∧
      (difference < 0 ↔ left.data.toList < right.data.toList) := by
  have hsize : left.size = size := Memory.size_of_read hleft
  have hsize' : right.size = size := Memory.size_of_read hright
  have hbyte {i : Nat} (hi : i < size) (heq : memory.byte? (a + UInt64.ofNat i) =
      memory.byte? (b + UInt64.ofNat i)) : Bytes.byteAt left i = Bytes.byteAt right i := by
    rw [Memory.byte?_of_read hfits hleft hi, Memory.byte?_of_read hfits hright hi] at heq
    exact Option.some.inj heq
  cases h with
  | equal hequal =>
    have heq : left = right := by
      apply Bytes.ext_byteAt (hsize.trans hsize'.symm)
      intro i hi
      exact hbyte (hsize ▸ hi) (hequal i (hsize ▸ hi))
    rw [heq]
    exact ⟨iff_of_true rfl rfl, iff_of_false (Int.lt_irrefl 0) (List.lt_irrefl _)⟩
  | first i first second hi hbefore hfirst hsecond hne =>
    rw [Memory.byte?_of_read hfits hleft hi, Option.some.injEq] at hfirst
    rw [Memory.byte?_of_read hfits hright hi, Option.some.injEq] at hsecond
    subst hfirst hsecond
    have hbytes := fun j (hj : j < i) => hbyte (Nat.lt_trans hj hi) (hbefore j hj)
    rw [lt_iff_byteAt_lt (hsize.symm ▸ hi) (hsize'.symm ▸ hi) hbytes hne, UInt8.lt_iff_toNat_lt]
    have hne' : (Bytes.byteAt left i).toNat ≠ (Bytes.byteAt right i).toNat :=
      fun heq => hne (UInt8.toNat_inj.1 heq)
    refine ⟨iff_of_false (by omega) ?_, by omega⟩
    rintro rfl
    exact hne rfl

end Reads

-- ════════════════════════════════════════════════════════════════════════
-- Calls that succeed and calls that fail
-- ════════════════════════════════════════════════════════════════════════

/-- The access is granted. -/
def Memory.Accepts (memory : Memory) (address : UInt64) (size : Nat) (write : Bool) : Prop :=
  ∃ window, memory.window address size write = .ok window

theorem Memory.accepts_of_read {memory : Memory} {address : UInt64} {size : Nat}
    {data : ByteArray} (h : memory.read address size = .ok data) :
    memory.Accepts address size false := by
  obtain ⟨window, hwindow, _⟩ := exists_window_of_read h
  exact ⟨window, hwindow⟩

theorem Memory.not_accepts_of_read {memory : Memory} {address : UInt64} {size : Nat}
    {fault : Fault} (h : memory.read address size = .error fault) :
    ¬memory.Accepts address size false := by
  rintro ⟨window, hwindow⟩
  rw [read, hwindow] at h
  cases h

theorem Memory.not_accepts_of_window {memory : Memory} {address : UInt64} {size : Nat}
    {write : Bool} {fault : Fault} (h : memory.window address size write = .error fault) :
    ¬memory.Accepts address size write := by
  rintro ⟨window, hwindow⟩
  rw [hwindow] at h
  cases h

/-- The call succeeds, with zero, iff `granted` holds, and then memory has contents that `result`
describes. If it fails, memory is as before. -/
structure Syscall.Does (action : Syscall UInt64) (context : Context) (granted : Prop)
    (result : Contents → Prop) : Prop where
  succeeds_iff : (∃ after, action context = .ok 0 after) ↔ granted
  returns : ∀ value after, action context = .ok value after →
    value = 0 ∧ result after.memory.byte?
  fails : ∀ fault after, action context = .error fault after → after.memory = context.memory

namespace Syscall.Does

variable {action : Syscall UInt64} {context after : Context} {granted : Prop}
  {result : Contents → Prop}

theorem of_ok (h : action context = .ok 0 after) (hgranted : granted)
    (hresult : result after.memory.byte?) : Does action context granted result where
  succeeds_iff := iff_of_true ⟨after, h⟩ hgranted
  returns value other hother := by
    rw [h] at hother
    cases hother
    exact ⟨rfl, hresult⟩
  fails fault other hother := by
    rw [h] at hother
    cases hother

theorem of_error {fault : Fault} (h : action context = .error fault after)
    (hmemory : after.memory = context.memory) (hrefused : ¬granted) :
    Does action context granted result where
  succeeds_iff := by
    refine iff_of_false ?_ hrefused
    rintro ⟨other, hother⟩
    rw [h] at hother
    cases hother
  returns value other hother := by
    rw [h] at hother
    cases hother
  fails fault other hother := by
    rw [h] at hother
    cases hother
    exact hmemory

/-- A call that comes to another call in a context with the same memory does the same. -/
theorem of_eq {other : Syscall UInt64} {middle : Context} (h : action context = other middle)
    (hmemory : middle.memory = context.memory) (hother : Does other middle granted result) :
    Does action context granted result := by
  refine ⟨?_, fun value after => ?_, fun fault after => ?_⟩
  · rw [h]
    exact hother.succeeds_iff
  · rw [h]
    exact hother.returns value after
  · rw [h, ← hmemory]
    exact hother.fails fault after

theorem mono {other : Contents → Prop} (h : Does action context granted result)
    (hresult : ∀ contents, result contents → other contents) :
    Does action context granted other where
  succeeds_iff := h.succeeds_iff
  returns value after hafter := by
    obtain ⟨hvalue, hcontents⟩ := h.returns value after hafter
    exact ⟨hvalue, hresult _ hcontents⟩
  fails := h.fails

/-- A call that begins by reading needs that access to be granted. -/
theorem slice {address size : UInt64} {next : ByteArray → Script}
    (h : ∀ data, context.memory.read address size.toNat = .ok data →
      Does (next data).run context granted result) :
    Does (Script.slice address size next).run context
      (context.memory.Accepts address size.toNat false ∧ granted) result := by
  have hrun := Script.run_slice context address size next
  cases hread : context.memory.read address size.toNat with
  | error fault =>
    rw [hread] at hrun
    exact of_error hrun rfl fun hgranted => Memory.not_accepts_of_read hread hgranted.1
  | ok data =>
    rw [hread] at hrun
    rw [and_iff_right (Memory.accepts_of_read hread)]
    exact of_eq hrun rfl (h data hread)

section Writes

variable (context) (hfits : context.memory.FitsRegions)
include hfits

theorem writeSlice (target : UInt64) (data : ByteArray) :
    Does (Script.writeSlice target data (.done 0)).run context
      (context.memory.Accepts target data.size true)
      fun contents => contents =
        context.memory.byte?.replace target data.size fun i => some (Bytes.byteAt data i) := by
  have hrun := Script.run_writeSlice (.done 0) context target data
  cases hwindow : context.memory.window target data.size true with
  | error fault =>
    rw [hwindow] at hrun
    exact of_error hrun rfl (Memory.not_accepts_of_window hwindow)
  | ok window =>
    rw [hwindow] at hrun
    exact of_ok hrun ⟨window, hwindow⟩ (Memory.byte?_overwrite hfits hwindow)

theorem fillSlice (target size : UInt64) (value : UInt8) :
    Does (Script.fillSlice target size value (.done 0)).run context
      (context.memory.Accepts target size.toNat true)
      fun contents => contents =
        context.memory.byte?.replace target size.toNat fun _ => some value := by
  have hrun := Script.run_fillSlice (.done 0) context target size value
  cases hwindow : context.memory.window target size.toNat true with
  | error fault =>
    rw [hwindow] at hrun
    exact of_error hrun rfl (Memory.not_accepts_of_window hwindow)
  | ok window =>
    rw [hwindow] at hrun
    exact of_ok hrun ⟨window, hwindow⟩ (Memory.byte?_fillWindow hfits hwindow)

end Writes

end Syscall.Does

-- ════════════════════════════════════════════════════════════════════════
-- The calls
-- ════════════════════════════════════════════════════════════════════════

/-- The contents after two ranges have been compared: as before, except that the four bytes at
`result` hold their difference as a little-endian signed number. -/
structure Compared (before after : Contents) (a b : UInt64) (size : Nat) (result : UInt64)
    (difference : Int32) : Prop where
  isDifference : before.IsDifference a b size difference.toInt
  stored : after = before.replace result 4 fun i =>
    some (Bytes.digit difference.toUInt32.toUInt64 i)

/-- The contents after the `size` bytes from `source` on have been copied to `target`. -/
def Contents.move (contents : Contents) (target source : UInt64) (size : Nat) : Contents :=
  contents.replace target size fun i => contents (source + UInt64.ofNat i)

section Scripts

open Builtin

variable (context : Context) (hfits : context.memory.FitsRegions)
include hfits

theorem copyScript_does (target source size : UInt64) :
    Syscall.Does (copyScript target source size).run context
      (context.memory.Accepts source size.toNat false ∧
        context.memory.Accepts target size.toNat true)
      fun contents => contents = context.memory.byte?.move target source size.toNat := by
  refine .slice fun data hread => ?_
  have hsize : data.size = size.toNat := Memory.size_of_read hread
  have hwrite := Syscall.Does.writeSlice context hfits target data
  rw [hsize] at hwrite
  refine hwrite.mono fun contents hcontents => hcontents.trans ?_
  exact Contents.replace_congr fun i hi => (Memory.byte?_of_read hfits hread hi).symm

theorem compareScript_does (a b size result : UInt64) :
    Syscall.Does
      (Script.slice a size fun left => .slice b size fun right =>
        .writeSlice result (Bytes.encodeLE (firstDifference left right 0).toUInt32.toUInt64 4)
          (.done 0)).run
      context
      (context.memory.Accepts a size.toNat false ∧ context.memory.Accepts b size.toNat false ∧
        context.memory.Accepts result 4 true)
      fun contents => ∃ difference,
        Compared context.memory.byte? contents a b size.toNat result difference := by
  refine .slice fun left hleft => .slice fun right hright => ?_
  have hwrite := Syscall.Does.writeSlice context hfits result
    (Bytes.encodeLE (firstDifference left right 0).toUInt32.toUInt64 4)
  rw [Bytes.size_encodeLE] at hwrite
  refine hwrite.mono fun contents hcontents =>
    ⟨firstDifference left right 0, isDifference_of_read hfits hleft hright, hcontents.trans ?_⟩
  refine Contents.replace_congr fun i hi => ?_
  rw [Bytes.byteAt_encodeLE, if_pos hi]

end Scripts

/-- Copying never reports that ranges meet: that is found out before. -/
theorem copyScript_ne_copyOverlapping (target source size : UInt64) (context after : Context) :
    (Builtin.copyScript target source size).run context ≠ .error .copyOverlapping after := by
  intro h
  rw [Builtin.copyScript, Script.run_slice] at h
  split at h
  · rw [Script.run_writeSlice] at h
    split at h
    · cases h
    · next hwindow =>
      obtain ⟨refusal, hfault⟩ := Memory.exists_refusal_of_window hwindow
      cases hfault ▸ h
  · next hread =>
    obtain ⟨refusal, hfault⟩ := Memory.refusal_of_read hread
    cases hfault ▸ h

section Payment

variable {context : Context} {size : UInt64}
  (hprice : max 10 (size.toNat / 250) ≤ context.meter.remaining.toNat)
include hprice

/-- A call that can be paid for goes on with a lower balance. -/
theorem exists_run_payScript : ∃ meter, ∀ next : Script,
    (Builtin.payScript size next).run context = next.run { context with meter } := by
  have hcost : (max memoryOpBaseCost (size / bytesPerUnit)).toNat = max 10 (size.toNat / 250) := by
    rw [Syscall.toNat_max, UInt64.toNat_div]
    rfl
  cases hcharge : context.meter.charge? (max memoryOpBaseCost (size / bytesPerUnit)) with
  | none =>
    rw [Meter.charge?_eq_none_iff, hcost] at hcharge
    exact absurd hprice (Nat.not_le.2 hcharge)
  | some meter =>
    refine ⟨meter, fun next => ?_⟩
    rw [Builtin.payScript, Script.run_charge, hcharge]

/-- Paying has no part in what a call does to memory. -/
theorem Syscall.Does.payScript {next : Script} {granted : Prop} {result : Contents → Prop}
    (h : ∀ meter, Syscall.Does next.run { context with meter } granted result) :
    Syscall.Does (Builtin.payScript size next).run context granted result := by
  obtain ⟨meter, hrun⟩ := exists_run_payScript hprice
  exact .of_eq (hrun next) rfl (h meter)

end Payment

-- ════════════════════════════════════════════════════════════════════════
-- All of them
-- ════════════════════════════════════════════════════════════════════════

section Calls

open Builtin

variable {context : Context} {arguments : Arguments}

/-- Copying ranges that do not meet is moving them. -/
theorem memcpy_eq_memmove (hapart : ¬RangesMeet arguments.r1 arguments.r2 arguments.r3) :
    Builtin.memcpy.invoke arguments = Builtin.memmove.invoke arguments := by
  rw [rangesMeet_iff] at hapart
  rw [← run_script, ← run_script, script, script, if_neg hapart]

variable (hprice : max 10 (arguments.r3.toNat / 250) ≤ context.meter.remaining.toNat)
include hprice

/-- Copying ranges that meet ends the call once it is paid for. -/
theorem exists_memcpy_of_rangesMeet (hmeet : RangesMeet arguments.r1 arguments.r2 arguments.r3) :
    ∃ meter, Builtin.memcpy.invoke arguments context =
      .error .copyOverlapping { context with meter } := by
  rw [rangesMeet_iff] at hmeet
  obtain ⟨meter, hrun⟩ := exists_run_payScript hprice
  refine ⟨meter, ?_⟩
  rw [← run_script, script, if_pos hmeet, hrun]
  rfl

theorem memcpy_meet_iff :
    (∃ after, Builtin.memcpy.invoke arguments context = .error .copyOverlapping after) ↔
      RangesMeet arguments.r1 arguments.r2 arguments.r3 := by
  constructor
  · rintro ⟨after, hafter⟩
    by_contra hapart
    obtain ⟨meter, hrun⟩ := exists_run_payScript hprice
    rw [memcpy_eq_memmove hapart, ← run_script, script, hrun] at hafter
    exact copyScript_ne_copyOverlapping _ _ _ _ _ hafter
  · intro hmeet
    obtain ⟨meter, hrun⟩ := exists_memcpy_of_rangesMeet hprice hmeet
    exact ⟨_, hrun⟩

variable (hfits : context.memory.FitsRegions)
include hfits

theorem memmove_does : Syscall.Does (Builtin.memmove.invoke arguments) context
    (context.memory.Accepts arguments.r2 arguments.r3.toNat false ∧
      context.memory.Accepts arguments.r1 arguments.r3.toNat true)
    fun contents =>
      contents = context.memory.byte?.move arguments.r1 arguments.r2 arguments.r3.toNat := by
  rw [← run_script]
  exact .payScript hprice fun meter => copyScript_does { context with meter } hfits _ _ _

theorem memcmp_does : Syscall.Does (Builtin.memcmp.invoke arguments) context
    (context.memory.Accepts arguments.r1 arguments.r3.toNat false ∧
      context.memory.Accepts arguments.r2 arguments.r3.toNat false ∧
      context.memory.Accepts arguments.r4 4 true)
    fun contents => ∃ difference, Compared context.memory.byte? contents arguments.r1 arguments.r2
      arguments.r3.toNat arguments.r4 difference := by
  rw [← run_script]
  exact .payScript hprice fun meter =>
    compareScript_does { context with meter } hfits _ _ _ _

end Calls

/-- What the memory calls do for given arguments. -/
structure MemoryCalls (context : Context) (arguments : Arguments) : Prop where
  memcpy_meet : (∃ after, Builtin.memcpy.invoke arguments context = .error .copyOverlapping after) ↔
    RangesMeet arguments.r1 arguments.r2 arguments.r3
  memcpy_apart : ¬RangesMeet arguments.r1 arguments.r2 arguments.r3 →
    Builtin.memcpy.invoke arguments context = Builtin.memmove.invoke arguments context
  memcpy : Syscall.Does (Builtin.memcpy.invoke arguments) context
    (¬RangesMeet arguments.r1 arguments.r2 arguments.r3 ∧
      context.memory.Accepts arguments.r2 arguments.r3.toNat false ∧
      context.memory.Accepts arguments.r1 arguments.r3.toNat true)
    fun contents =>
      contents = context.memory.byte?.move arguments.r1 arguments.r2 arguments.r3.toNat
  /-- The bytes that are written are those that the source held before, even where ranges meet. -/
  memmove : Syscall.Does (Builtin.memmove.invoke arguments) context
    (context.memory.Accepts arguments.r2 arguments.r3.toNat false ∧
      context.memory.Accepts arguments.r1 arguments.r3.toNat true)
    fun contents =>
      contents = context.memory.byte?.move arguments.r1 arguments.r2 arguments.r3.toNat
  memset : Syscall.Does (Builtin.memset.invoke arguments) context
    (context.memory.Accepts arguments.r1 arguments.r3.toNat true)
    fun contents => contents = context.memory.byte?.replace arguments.r1 arguments.r3.toNat
      fun _ => some arguments.r2.toUInt8
  memcmp : Syscall.Does (Builtin.memcmp.invoke arguments) context
    (context.memory.Accepts arguments.r1 arguments.r3.toNat false ∧
      context.memory.Accepts arguments.r2 arguments.r3.toNat false ∧
      context.memory.Accepts arguments.r4 4 true)
    fun contents => ∃ difference, Compared context.memory.byte? contents arguments.r1 arguments.r2
      arguments.r3.toNat arguments.r4 difference
  /-- The sign of the difference is the order of the two ranges as strings of unsigned bytes. -/
  memcmp_order : ∀ left right contents difference,
    context.memory.read arguments.r1 arguments.r3.toNat = .ok left →
    context.memory.read arguments.r2 arguments.r3.toNat = .ok right →
    Compared context.memory.byte? contents arguments.r1 arguments.r2 arguments.r3.toNat
      arguments.r4 difference →
    (difference.toInt < 0 ↔ left.data.toList < right.data.toList) ∧
      (difference.toInt = 0 ↔ left = right) ∧
      (0 < difference.toInt ↔ right.data.toList < left.data.toList)
  /-- With the ranges exchanged, the call stores the negated difference. -/
  memcmp_swap : ∀ after, Builtin.memcmp.invoke arguments context = .ok 0 after →
    ∃ swapped difference,
      Builtin.memcmp.invoke { arguments with r1 := arguments.r2, r2 := arguments.r1 } context =
        .ok 0 swapped ∧
      Compared context.memory.byte? after.memory.byte? arguments.r1 arguments.r2
        arguments.r3.toNat arguments.r4 difference ∧
      Compared context.memory.byte? swapped.memory.byte? arguments.r2 arguments.r1
        arguments.r3.toNat arguments.r4 (-difference)

/-- If it can be paid for, a memory call does to the contents of memory what it is meant to do. -/
theorem memoryCalls {context : Context} (arguments : Arguments)
    (hfits : context.memory.FitsRegions)
    (hprice : max 10 (arguments.r3.toNat / 250) ≤ context.meter.remaining.toNat) :
    MemoryCalls context arguments where
  memcpy_meet := memcpy_meet_iff hprice
  memcpy_apart hapart := congrFun (memcpy_eq_memmove hapart) context
  memcpy := by
    by_cases hmeet : RangesMeet arguments.r1 arguments.r2 arguments.r3
    · obtain ⟨meter, hrun⟩ := exists_memcpy_of_rangesMeet hprice hmeet
      exact .of_error hrun rfl fun hgranted => hgranted.1 hmeet
    · rw [memcpy_eq_memmove hmeet, and_iff_right hmeet]
      exact memmove_does hprice hfits
  memmove := memmove_does hprice hfits
  memset := by
    rw [← Builtin.run_script]
    exact .payScript hprice fun meter => .fillSlice { context with meter } hfits _ _ _
  memcmp := memcmp_does hprice hfits
  memcmp_order left right contents difference hleft hright hcompared := by
    have hdifference := hcompared.isDifference
    obtain ⟨hzero, hnegative⟩ := hdifference.order hfits hleft hright
    obtain ⟨_, hpositive⟩ := hdifference.swap.order hfits hright hleft
    rw [Int.neg_neg_iff_pos] at hpositive
    exact ⟨hnegative, hzero, hpositive⟩
  memcmp_swap after hafter := by
    have hdoes := memcmp_does hprice hfits
    let exchanged := { arguments with r1 := arguments.r2, r2 := arguments.r1 }
    have hexchanged : Syscall.Does (Builtin.memcmp.invoke exchanged) context _ _ :=
      memcmp_does hprice hfits
    obtain ⟨hleft, hright, hresult⟩ := hdoes.succeeds_iff.1 ⟨after, hafter⟩
    obtain ⟨_, difference, hcompared⟩ := hdoes.returns 0 after hafter
    obtain ⟨swapped, hswapped⟩ := hexchanged.succeeds_iff.2 ⟨hright, hleft, hresult⟩
    obtain ⟨_, other, hother⟩ := hexchanged.returns 0 swapped hswapped
    have hnegated : other = -difference := by
      have hbounds := hcompared.isDifference.bounds
      have hunique := hother.isDifference.unique hcompared.isDifference.swap
      rw [← Int32.toInt_inj, hunique, Int32.toInt_neg, Int.bmod_eq_of_le] <;> omega
    rw [hnegated] at hother
    exact ⟨swapped, difference, hswapped, hcompared, hother⟩

/-- Eight bytes of input and four bytes of heap. -/
private def smallContext : Context where
  memory := .new .empty 4 (Bytes.encodeLE 0x6867666564636261 8)
  meter := .new 10
  log := #[]

/-- Two ranges of the input that overlap, and the whole heap. -/
private def overlappingRanges : Arguments where
  r1 := inputBase + 2
  r2 := inputBase
  r3 := 4
  r4 := heapBase
  r5 := 0

theorem memoryCalls_overlappingRanges :
    smallContext.memory.FitsRegions ∧
      max 10 (overlappingRanges.r3.toNat / 250) ≤ smallContext.meter.remaining.toNat ∧
      MemoryCalls smallContext overlappingRanges ∧
      (∃ after, Builtin.memcpy.invoke overlappingRanges smallContext =
        .error .copyOverlapping after) ∧
      (∃ after, Builtin.memmove.invoke overlappingRanges smallContext = .ok 0 after) ∧
      ∃ after, Builtin.memcmp.invoke overlappingRanges smallContext = .ok 0 after := by
  have hfits : smallContext.memory.FitsRegions := Memory.fitsRegions_new_iff.2 (by decide)
  have hprice : max 10 (overlappingRanges.r3.toNat / 250) ≤
      smallContext.meter.remaining.toNat := by decide
  have hcalls := memoryCalls overlappingRanges hfits hprice
  have haccepts (address : UInt64) (write : Bool) (window : Window)
      (hplace : Region.ofAddress? address = some window.region ∧
        Memory.locateIn window.region (address.toNat % 0x100000000) 4 write = .ok window.start ∧
        window.start + 4 ≤ (smallContext.memory.bytes window.region).size ∧ window.size = 4) :
      smallContext.memory.Accepts address 4 write :=
    ⟨window, Memory.window_eq_ok_iff.2 (Memory.locate_eq_ok_iff.2 hplace)⟩
  have htarget : smallContext.memory.Accepts overlappingRanges.r1 4 true :=
    haccepts _ true ⟨.input, 2, 4⟩ (by decide)
  have hleft : smallContext.memory.Accepts overlappingRanges.r1 4 false :=
    haccepts _ false ⟨.input, 2, 4⟩ (by decide)
  have hsource : smallContext.memory.Accepts overlappingRanges.r2 4 false :=
    haccepts _ false ⟨.input, 0, 4⟩ (by decide)
  have hresult : smallContext.memory.Accepts overlappingRanges.r4 4 true :=
    haccepts _ true ⟨.heap, 0, 4⟩ (by decide)
  refine ⟨hfits, hprice, hcalls, hcalls.memcpy_meet.2 ?_, ?_, ?_⟩
  · exact ⟨inputBase.toNat + 2, by decide, by decide⟩
  · exact hcalls.memmove.succeeds_iff.2 ⟨hsource, htarget⟩
  · exact hcalls.memcmp.succeeds_iff.2 ⟨hleft, hsource, hresult⟩

end SbfMachine
