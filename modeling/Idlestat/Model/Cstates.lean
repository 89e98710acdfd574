import Idlestat.Model.Topology
import Mathlib.Data.Rat.Defs
import Mathlib.Algebra.Order.Field.Rat

/-! The C-state recorder of `idlestat.c`. Times are seconds, recorded durations
are microseconds, both exact rationals. Allocation succeeds. -/
namespace Idlestat.Model.Cstates

open Idlestat.Model.Topology

def maxcstate : Nat := 16

instance : NeZero maxcstate := ⟨by decide⟩

def usecPerSec : ℚ := 1000000

/-- The largest finite `double`. -/
def dblMax : ℚ := (2 ^ 53 - 1) * 2 ^ 971

section Macros

variable {α : Type} [LT α] [DecidableLT α]

def cMax (a b : α) : α := if a > b then a else b
def cMin (a b : α) : α := if a < b then a else b

end Macros

def cAvg (a b : ℚ) (i : Nat) : ℚ := a + (b - a) / i

structure CpuidleData where
  beginTime : ℚ
  endTime : ℚ
  duration : ℚ
  deriving DecidableEq

structure CpuidleCstate where
  name : Option (List Char)
  data : List CpuidleData
  nrdata : Nat
  earlyWakings : Nat
  lateWakings : Nat
  avgTime : ℚ
  maxTime : ℚ
  minTime : ℚ
  duration : ℚ
  targetResidency : Int
  deriving DecidableEq

structure WakeupIrq where
  id : Int
  name : List Char
  count : Nat
  earlyTriggers : Nat
  lateTriggers : Nat
  deriving DecidableEq

inductive Residency
  | asExpected
  | tooLong
  | tooShort
  deriving DecidableEq

/-- `wakeirq` points into `wakeinfo`; only its being null is ever read. -/
structure CpuidleCstates where
  cstate : Fin maxcstate → CpuidleCstate
  wakeinfo : List WakeupIrq
  currentCstate : Int
  cstateMax : Int
  wakeirq : Option Nat
  actualResidency : Residency

def cstateIndex (state : Int) : Except Fault (Fin maxcstate) :=
  if h : 0 ≤ state ∧ state < maxcstate then .ok ⟨state.toNat, by omega⟩
  else .error .outOfBounds

def CpuidleCstates.setCstate (cstates : CpuidleCstates) (i : Fin maxcstate)
    (c : CpuidleCstate) : CpuidleCstates :=
  { cstates with cstate := Function.update cstates.cstate i c }

/-- `realloc` to `nrdata + 1` slots and clear the last one. -/
def cstateBegin (time : ℚ) (state : Int) (cstates : CpuidleCstates) :
    Except Fault CpuidleCstates := do
  let i ← cstateIndex state
  let cstate := cstates.cstate i
  let slot : CpuidleData := { beginTime := time, endTime := 0, duration := 0 }
  let opened := cstates.setCstate i
    { cstate with data := cstate.data.take cstate.nrdata ++ [slot] }
  .ok { opened with
    cstateMax := cMax cstates.cstateMax state
    currentCstate := state
    wakeirq := none }

/-- Whether a period of `duration` in state `last` was too short for it, or
long enough for the next state, looking no deeper than `cstate_max`. -/
def actualResidency (cstates : CpuidleCstates) (last : Fin maxcstate) (duration : ℚ) :
    Except Fault Residency :=
  if duration < (cstates.cstate last).targetResidency then .ok .tooShort
  else
    let nextCstate : Int := (last.val : Int) + 1
    if nextCstate ≤ cstates.cstateMax then do
      let next ← cstateIndex nextCstate
      let tr := (cstates.cstate next).targetResidency
      .ok (if tr > 0 ∧ duration ≥ tr then .tooLong else .asExpected)
    else .ok .asExpected

def CpuidleCstate.commit (cstate : CpuidleCstate) (slot : CpuidleData)
    (verdict : Residency) : CpuidleCstate :=
  { cstate with
    data := cstate.data.set cstate.nrdata slot
    earlyWakings := if verdict = .tooShort then cstate.earlyWakings + 1 else cstate.earlyWakings
    lateWakings := if verdict = .tooLong then cstate.lateWakings + 1 else cstate.lateWakings
    minTime := cMin cstate.minTime slot.duration
    maxTime := cMax cstate.maxTime slot.duration
    avgTime := cAvg cstate.avgTime slot.duration (cstate.nrdata + 1)
    duration := cstate.duration + slot.duration
    nrdata := cstate.nrdata + 1 }

def cstateEnd (time : ℚ) (cstates : CpuidleCstates) : Except Fault CpuidleCstates := do
  let last ← cstateIndex cstates.currentCstate
  let cstate := cstates.cstate last
  match cstate.data[cstate.nrdata]? with
  | none => .error .outOfBounds
  | some slot =>
    let duration := time - slot.beginTime
    let slot := { slot with endTime := time, duration := duration }
    if duration ≤ 0 then
      -- not recorded: the slot stays behind `nrdata`, but the state does end
      .ok { cstates.setCstate last
              { cstate with data := cstate.data.set cstate.nrdata slot } with
            currentCstate := -1 }
    else
      let slot := { slot with duration := duration * usecPerSec }
      let verdict ← actualResidency cstates last slot.duration
      .ok { cstates.setCstate last (cstate.commit slot verdict) with
            actualResidency := verdict
            currentCstate := -1 }

def recordCstateEvent (cstates : CpuidleCstates) (time : ℚ) (state : Int) :
    Except Fault CpuidleCstates :=
  if state = cstates.currentCstate then .ok cstates
  else do
    let cstates ← if cstates.currentCstate ≠ -1 then cstateEnd time cstates else .ok cstates
    if state ≠ -1 then cstateBegin time state cstates else .ok cstates

end Idlestat.Model.Cstates
