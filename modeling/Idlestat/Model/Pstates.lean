import Idlestat.Model.Cstates

/-! The P-state records of `idlestat.c`: a frequency table per CPU, core and
cluster, kept in increasing order while an index into it (`current`) is live. -/
namespace Idlestat.Model.Pstates

open Idlestat.Model.Cstates

structure CpufreqPstate where
  id : Nat
  freq : Nat
  count : Nat
  minTime : ℚ
  maxTime : ℚ
  avgTime : ℚ
  duration : ℚ
  deriving DecidableEq

/-- `current` is an index or -1, `idle` is -1 (unknown), 0 or 1. A null
`pstate` array is the empty list. -/
@[ext] structure CpufreqPstates where
  pstate : List CpufreqPstate
  current : Int
  idle : Int
  timeEnter : ℚ
  max : Nat
  deriving DecidableEq

def buildPstateInfo : CpufreqPstates :=
  { pstate := [], current := -1, idle := -1, timeEnter := 0, max := 0 }

/-- The `for` loop of `alloc_pstate` from index `i` on: the index of the entry
with this frequency, or else the index where the loop stops. -/
def findFreq (freq : Nat) : List CpufreqPstate → Nat → Sum Nat Nat
  | [], i => .inr i
  | p :: rest, i =>
    if freq ≥ p.freq then
      if p.freq = freq then .inl i else findFreq freq rest (i + 1)
    else .inr i

def newPstate (next freq : Nat) : CpufreqPstate :=
  { id := next, freq := freq, count := 0, minTime := dblMax, maxTime := 0, avgTime := 0,
    duration := 0 }

def allocPstate (pstates : CpufreqPstates) (freq : Nat) : CpufreqPstates × Nat :=
  let nrfreq := pstates.max
  let pstate := pstates.pstate.take nrfreq
  match findFreq freq pstate 0 with
  | .inl i => (pstates, i)
  | .inr next =>
    let moved := (pstate.drop next).take (nrfreq - next)
    ({ pstates with
        pstate := pstate.take next ++ newPstate next freq ::
          moved.mapIdx fun k p => { p with id := next + 1 + k }
        max := nrfreq + 1
        current := if pstates.current ≥ next then pstates.current + 1 else pstates.current },
      next)

def openCurrentPstate (ps : CpufreqPstates) (time : ℚ) : CpufreqPstates :=
  { ps with timeEnter := time }

def openNextPstate (ps : CpufreqPstates) (s : Int) (time : ℚ) : CpufreqPstates :=
  openCurrentPstate { ps with current := s } time

/-- What `close_current_pstate` does to the entry it closes. -/
def CpufreqPstate.close (p : CpufreqPstate) (elapsed : ℚ) : CpufreqPstate :=
  { p with
    minTime := cMin p.minTime elapsed
    maxTime := cMax p.maxTime elapsed
    avgTime := cAvg p.avgTime elapsed (p.count + 1)
    duration := p.duration + elapsed
    count := p.count + 1 }

def closeCurrentPstate (ps : CpufreqPstates) (time : ℚ) : CpufreqPstates :=
  let elapsed := (time - ps.timeEnter) * usecPerSec
  if elapsed ≤ 0 then ps
  else { ps with pstate := ps.pstate.modify ps.current.toNat (·.close elapsed) }

def recordGroupFreq (ps : CpufreqPstates) (time : ℚ) (freq : Nat) : CpufreqPstates :=
  let cur := ps.current
  let (ps, next) : CpufreqPstates × Int :=
    if freq > 0 then
      let (ps, i) := allocPstate ps freq
      (ps, i)
    else (ps, -1)
  if cur = next then ps
  else if cur = -1 then
    if next = -1 then ps else openNextPstate ps next time
  else
    let ps := { closeCurrentPstate ps time with current := next }
    if next = -1 then ps else openCurrentPstate ps time

end Idlestat.Model.Pstates
