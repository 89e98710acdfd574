import Idlestat.Theory.TraceSettings

/-! The default size of the trace buffer. It is right as long as the bytes of the
whole interval can be counted in 32 bits: the product wraps before the division
by 1024 makes it small. -/
namespace Idlestat.Theory.BufferSize

open Idlestat.Library.Scan Idlestat.Model.Trace Idlestat.Theory.TraceSettings

section Wrapped

variable {a m n : Nat}

theorem wrapped_div_lt (hm : 0 < m) : a % (n * m) / n < m := by
  rw [Nat.mod_mul_right_div_self]
  exact Nat.mod_lt _ hm

/-- A value that wraps at a multiple of the divisor has the right quotient exactly
when it does not wrap. -/
theorem quotient_wrapped_iff (hn : 0 < n) (hm : 0 < m) :
    a % (n * m) / n = a / n ↔ a < n * m := by
  rw [Nat.mod_mul_right_div_self, Nat.mod_eq_iff_lt (Nat.ne_of_gt hm), Nat.div_lt_iff_lt_mul hn,
    Nat.mul_comm m n]

theorem covers_wrapped_iff (hn : 0 < n) (hm : 1 < m) :
    a ≤ n * (a % (n * m) / n + 1) ↔ a < n * m := by
  constructor
  · intro h
    apply Classical.byContradiction
    intro hge
    -- what is rounded up ends where the values wrap, and there it is only `n`
    have hround : n * (a % (n * m) / n + 1) ≤ n * m :=
      Nat.mul_le_mul_left n (wrapped_div_lt (Nat.lt_of_succ_lt hm))
    have hend : a = n * m := by omega
    have hone : n * 1 < n * m := Nat.mul_lt_mul_of_pos_left hm hn
    rw [hend, Nat.mod_self, Nat.zero_div] at h
    omega
  · intro h
    rw [Nat.mod_eq_of_lt h]
    exact Nat.le_of_lt (Nat.lt_mul_div_succ a hn)

end Wrapped

/-- The assumed worst case: two lines for each idle state that is entered and left,
one for each change of frequency. -/
def bytesPerSec : Nat :=
  2 * traceIdleLength.toNat * traceIdleNrhitsPerSec.toNat +
    traceCpufreqLength.toNat * traceCpufreqNrhitsPerSec.toNat

def exactSize (interval : Nat) : Nat :=
  bytesPerSec * interval / 1024 + 1

section Settings

variable (duration : UInt32) (tbs : TraceBufferSettings)

/-- The poll interval, or else the duration. -/
def interval : UInt32 :=
  if tbs.pollInterval = 0 then duration else tbs.pollInterval

def bufferSize : Nat :=
  (calculateBufferParameters duration tbs).2.percpuBufferSize.toNat

/-- The exact size is a number that can be set. -/
def Fits : Prop :=
  exactSize (interval duration tbs).toNat < 2 ^ 32

/-- The exact size is set, it covers the interval at the assumed rate, and no
shorter interval is given more. -/
structure ExactlySized : Prop where
  exact : bufferSize duration tbs = exactSize (interval duration tbs).toNat
  covers : bytesPerSec * (interval duration tbs).toNat ≤ 1024 * bufferSize duration tbs
  monotone : ∀ duration' tbs', tbs'.percpuBufferSize = 0 →
    (interval duration' tbs').toNat ≤ (interval duration tbs).toNat →
      bufferSize duration' tbs' ≤ bufferSize duration tbs

def Sized : Prop :=
  Fits duration tbs → ExactlySized duration tbs

/-- The bytes of the whole interval can be counted in an `unsigned int`. -/
def Countable : Prop :=
  bytesPerSec * (interval duration tbs).toNat < 2 ^ 32

end Settings

section Computed

variable {duration : UInt32} {tbs : TraceBufferSettings}

theorem wrapped_kb_lt (bytes : Nat) : bytes % 2 ^ 32 / 1024 < 2 ^ 22 :=
  wrapped_div_lt (n := 1024) (m := 2 ^ 22) (by decide)

theorem toNat_defBufsize (pollInterval : UInt32) : (defBufsize pollInterval).toNat =
    bytesPerSec * pollInterval.toNat % 2 ^ 32 / 1024 + 1 := by
  have hrate : (2 * traceIdleLength * traceIdleNrhitsPerSec +
      traceCpufreqLength * traceCpufreqNrhitsPerSec).toNat = bytesPerSec := rfl
  have hkb : ((1 : UInt32) <<< 10).toNat = 1024 := rfl
  have hone : (1 : UInt32).toNat = 1 := rfl
  have hsmall := wrapped_kb_lt (bytesPerSec * pollInterval.toNat)
  unfold defBufsize
  dsimp only
  rw [UInt32.toNat_add, UInt32.toNat_div, UInt32.toNat_mul, hrate, hkb, hone]
  exact Nat.mod_eq_of_lt (by omega)

theorem calculateBufferParameters_eq (h : tbs.percpuBufferSize = 0) :
    calculateBufferParameters duration tbs =
      (0, { percpuBufferSize := defBufsize (interval duration tbs)
            pollInterval := interval duration tbs }) := by
  unfold calculateBufferParameters interval
  by_cases hpoll : tbs.pollInterval = 0
  · simp [hpoll, h]
  · simp [hpoll, h]

theorem percpuBufferSize_given (h : tbs.percpuBufferSize ≠ 0) :
    (calculateBufferParameters duration tbs).2.percpuBufferSize = tbs.percpuBufferSize := by
  unfold calculateBufferParameters
  by_cases hpoll : tbs.pollInterval = 0
  · simp [hpoll, h]
  · simp [hpoll, h]

theorem bufferSize_eq (h : tbs.percpuBufferSize = 0) : bufferSize duration tbs =
    bytesPerSec * (interval duration tbs).toNat % 2 ^ 32 / 1024 + 1 := by
  rw [bufferSize, calculateBufferParameters_eq h]
  exact toNat_defBufsize _

/-- The default is never beyond the 4 GB that can be counted, so `idlestat_init_trace`
takes it for the same number. -/
theorem toInt_bufferSize (h : tbs.percpuBufferSize = 0) :
    toInt (bufferSize duration tbs) = bufferSize duration tbs := by
  have hsmall := wrapped_kb_lt (bytesPerSec * (interval duration tbs).toNat)
  rw [bufferSize_eq h, toInt, Int.bmod_eq_of_le]
  · omega
  · omega

theorem exact_iff (h : tbs.percpuBufferSize = 0) :
    bufferSize duration tbs = exactSize (interval duration tbs).toNat ↔
      Countable duration tbs := by
  rw [bufferSize_eq h, exactSize, Nat.add_right_cancel_iff]
  exact quotient_wrapped_iff (n := 1024) (m := 2 ^ 22) (by decide) (by decide)

theorem covers_iff (h : tbs.percpuBufferSize = 0) :
    bytesPerSec * (interval duration tbs).toNat ≤ 1024 * bufferSize duration tbs ↔
      Countable duration tbs := by
  rw [bufferSize_eq h]
  exact covers_wrapped_iff (n := 1024) (m := 2 ^ 22) (by decide) (by decide)

theorem exactSize_mono {i j : Nat} (h : i ≤ j) : exactSize i ≤ exactSize j :=
  Nat.succ_le_succ (Nat.div_le_div_right (Nat.mul_le_mul_left bytesPerSec h))

theorem countable_of_le {duration' : UInt32} {tbs' : TraceBufferSettings}
    (h : Countable duration tbs)
    (hle : (interval duration' tbs').toNat ≤ (interval duration tbs).toNat) :
    Countable duration' tbs' :=
  Nat.lt_of_le_of_lt (Nat.mul_le_mul_left bytesPerSec hle) h

/-- In seconds: a little more than 18 minutes. -/
theorem countable_iff : Countable duration tbs ↔ (interval duration tbs).toNat ≤ 1090 := by
  have hrate : bytesPerSec = 3939600 := rfl
  unfold Countable
  rw [hrate]
  omega

/-- Sizes that can be set go up to almost 13 days. -/
theorem fits_iff : Fits duration tbs ↔ (interval duration tbs).toNat ≤ 1116368 := by
  have hrate : bytesPerSec = 3939600 := rfl
  unfold Fits exactSize
  rw [hrate]
  omega

theorem exactlySized_iff (hnone : tbs.percpuBufferSize = 0) :
    ExactlySized duration tbs ↔ Countable duration tbs := by
  constructor
  · intro h
    exact (exact_iff hnone).mp h.exact
  · intro hcount
    have hexact := (exact_iff hnone).mpr hcount
    refine ⟨hexact, (covers_iff hnone).mpr hcount, ?_⟩
    intro duration' tbs' hnone' hle
    rw [hexact, (exact_iff hnone').mpr (countable_of_le hcount hle)]
    exact exactSize_mono hle

end Computed

/-- Where no size is given, the default is right exactly when the bytes of the
interval can be counted in 32 bits, or not even the exact size fits in them. -/
theorem bufferSize_sized (duration : UInt32) (tbs : TraceBufferSettings)
    (hnone : tbs.percpuBufferSize = 0) :
    Sized duration tbs ↔ Countable duration tbs ∨ ¬ Fits duration tbs := by
  rw [Sized, exactlySized_iff hnone, imp_iff_not_or, or_comm]

section Init

variable {kernel : Kernel} {access : Access}

@[simp] theorem bufferSize_writeInt_enable {dir : Dir} {val : Int} {fs : Tracefs kernel} :
    (writeInt access (.enable dir) val fs).2.bufferSize = fs.bufferSize := by
  unfold writeInt
  split
  · exact bufferSize_written_enable
  · rfl

theorem bufferSize_initTrace (percpuBufsize : Nat) (fs : Tracefs kernel) :
    (idlestatInitTrace access percpuBufsize fs).2.bufferSize =
      (writeInt access .bufferSizeKb (toInt percpuBufsize) fs).2.bufferSize := by
  unfold idlestatInitTrace
  dsimp only
  -- a case for each of the calls that can fail
  repeat' split
  all_goals simp [traceEventPath, traceCpuidleEventPath, traceCpufreqEventPath, traceIrqEventPath,
    traceIpiEventPath]

/-- If the kernel can have a buffer of the default size it has one. -/
theorem bufferSize_default {duration : UInt32} {tbs : TraceBufferSettings}
    (hnone : tbs.percpuBufferSize = 0) (hwrite : access.canWrite .bufferSizeKb = true)
    (haccepts : kernel.accepts (bufferSize duration tbs) = true) (fs : Tracefs kernel) :
    (idlestatInitTrace access (bufferSize duration tbs) fs).2.bufferSize =
      bufferSize duration tbs := by
  rw [bufferSize_initTrace, toInt_bufferSize hnone, writeInt_ok hwrite]
  exact bufferSize_written haccepts

end Init

def noSettings : TraceBufferSettings :=
  { percpuBufferSize := 0, pollInterval := 0 }

/-- The longest trace whose size fits and is right. -/
theorem bufferSize_sized_longest : Fits 1090 noSettings ∧ Sized 1090 noSettings :=
  ⟨fits_iff.mpr (by decide),
    (bufferSize_sized 1090 noSettings rfl).mpr (.inl (countable_iff.mpr (by decide)))⟩

/-- One second more needs 4 GB, a size that fits, and is given 3 MB. -/
theorem bufferSize_wraps :
    exactSize (interval 1091 noSettings).toNat = 4197367 ∧ 4197367 < 2 ^ 32 ∧
      bufferSize 1091 noSettings = 3063 ∧ ¬ Sized 1091 noSettings := by
  have hexact : exactSize (interval 1091 noSettings).toNat = 4197367 := by decide
  have hset : bufferSize 1091 noSettings = 3063 := by decide
  refine ⟨hexact, by decide, hset, ?_⟩
  intro h
  have hsame := (h (fits_iff.mpr (by decide))).exact
  rw [hexact, hset] at hsame
  omega

end Idlestat.Theory.BufferSize
