import Idlestat.Model.SysfsScan
import Idlestat.Theory.TopologyCanonical

/-! The topology that a scan of sysfs gives, where the ids of the CPUs can be
read. The scan ends at the first entry that cannot be used; if there is none, the
order in which `readdir` returns the entries leaves no trace but in the
enumerations. -/
namespace Idlestat.Theory.SysfsTopology

open Idlestat.Library Idlestat.Library.Scan Idlestat.Model.Topology Idlestat.Model.StoreFile
  Idlestat.Model.SysfsScan Idlestat.Theory.TopologyTree Idlestat.Theory.TopologyCanonical

/-- The entry of a CPU that is online, with a directory `topology`. -/
structure Present (direntp : Dirent) : Prop where
  seen : ignored direntp = false
  online : ∃ online, isOnline direntp = some online ∧ online ≠ 0
  folder : direntp.topology = some true ∧ direntp.reopened = true

/-- The numbers of a CPU, as its name and its files give them. -/
structure Offers (direntp : Dirent) (info : TopologyInfo) : Prop where
  present : Present direntp
  number : (sscanf (lits "cpu".toList ++ [.conv .d]) direntp.name).assigned = [.int info.cpuId]
  core : readInt direntp.coreId = some info.coreId
  physical : readInt direntp.physicalPackageId = some info.physicalId

/-- Both id files of a CPU can be read. -/
def Readable (direntp : Dirent) : Prop :=
  Present direntp →
    (readInt direntp.coreId).isSome ∧ (readInt direntp.physicalPackageId).isSome

/-- The scan fails at the entry: it cannot tell whether the CPU is online, there is
no `topology`, or the name has no number. -/
def Unusable (direntp : Dirent) : Prop :=
  ignored direntp = false ∧ (isOnline direntp = none ∨
    (∃ online, isOnline direntp = some online ∧ online ≠ 0) ∧ direntp.topology = none ∨
    Present direntp ∧
      ∀ n, (sscanf (lits "cpu".toList ++ [.conv .d]) direntp.name).assigned ≠ [.int n])

/-- The entry ends the scan, or the program. -/
def Stops (direntp : Dirent) : Prop :=
  Unusable direntp ∨ ∃ info, Offers direntp info ∧ ¬ NonNegative info

variable {direntp : Dirent} {info cpuInfo : TopologyInfo} {entries : List Dirent}
  {topo : CpuTopology} {stack : Nat → TopologyInfo} {turn : Nat}

/-! ## One entry -/

theorem Offers.unique {other : TopologyInfo} (h : Offers direntp info)
    (hother : Offers direntp other) : info = other := by
  have hcpu : info.cpuId = other.cpuId := by
    have hscan := h.number.symm.trans hother.number
    simpa using hscan
  have hcore := Option.some.inj (h.core.symm.trans hother.core)
  have hphysical := Option.some.inj (h.physical.symm.trans hother.physical)
  cases info
  cases other
  simp only at hcpu hcore hphysical
  rw [hcpu, hcore, hphysical]

theorem Offers.usable (h : Offers direntp info) : ¬ Unusable direntp := by
  rintro ⟨-, honline | ⟨-, htopology⟩ | ⟨-, hnumber⟩⟩
  · obtain ⟨online, hsome, -⟩ := h.present.online
    rw [honline] at hsome
    cases hsome
  · have hfolder := h.present.folder.1
    rw [htopology] at hfolder
    cases hfolder
  · exact hnumber _ h.number

/-- What a turn of the loop does, whatever `cpu_info` held. -/
inductive TurnSpec (direntp : Dirent) : Turn → Prop
  | next (husable : ¬ Unusable direntp) (hoffers : ∀ info, ¬ Offers direntp info) :
      TurnSpec direntp .next
  | add (info : TopologyInfo) (hoffers : Offers direntp info) : TurnSpec direntp (.add info)
  | out (hunusable : Unusable direntp) : TurnSpec direntp .out

theorem addTurn_spec (hpresent : Present direntp) (hreadable : Readable direntp) :
    TurnSpec direntp (addTurn cpuInfo direntp) := by
  obtain ⟨hcore, hphysical⟩ := hreadable hpresent
  obtain ⟨coreId, hcore⟩ := Option.isSome_iff_exists.mp hcore
  obtain ⟨physicalId, hphysical⟩ := Option.isSome_iff_exists.mp hphysical
  unfold addTurn
  split
  · next cpuId hscan =>
    apply TurnSpec.add
    exact
      { present := hpresent
        number := hscan
        core := by simp only [readTopologyCb, fileReadValue, hcore, Option.getD_some]
        physical := by simp only [readTopologyCb, fileReadValue, hphysical, Option.getD_some] }
  · next hscan => exact .out ⟨hpresent.seen, .inr (.inr ⟨hpresent, hscan⟩)⟩

theorem scanTurn_spec (hreadable : Readable direntp) :
    TurnSpec direntp (scanTurn cpuInfo direntp) := by
  have hoffline : ¬ Present direntp → ¬ Unusable direntp → TurnSpec direntp .next :=
    fun hpresent husable => .next husable fun info hoffers => hpresent hoffers.present
  unfold scanTurn
  split
  · next hignored =>
    apply hoffline
    · intro hpresent
      rw [hpresent.seen] at hignored
      cases hignored
    · intro hunusable
      rw [hunusable.1] at hignored
      cases hignored
  · next hseen =>
    have hseen : ignored direntp = false := by simpa using hseen
    split
    · next honline => exact .out ⟨hseen, .inl honline⟩
    · next online honline =>
      split
      · next hzero =>
        have hnot : ¬ ∃ online, isOnline direntp = some online ∧ online ≠ 0 := by
          rintro ⟨other, hother, hne⟩
          rw [honline] at hother
          exact hne (Option.some.inj hother ▸ hzero)
        apply hoffline
        · exact fun hpresent => hnot hpresent.online
        · rintro ⟨-, hnone | ⟨hsome, -⟩ | ⟨hpresent, -⟩⟩
          · rw [honline] at hnone
            cases hnone
          · exact hnot hsome
          · exact hnot hpresent.online
      · next hne =>
        have hgoes : ∀ is_dir, direntp.topology = some is_dir → ¬ Present direntp →
            TurnSpec direntp .next := by
          intro is_dir htopology hpresent
          apply hoffline hpresent
          rintro ⟨-, hnone | ⟨-, hnone⟩ | ⟨hpresent', -⟩⟩
          · rw [honline] at hnone
            cases hnone
          · rw [htopology] at hnone
            cases hnone
          · exact hpresent hpresent'
        split
        · next htopology =>
          exact .out ⟨hseen, .inr (.inl ⟨⟨online, honline, hne⟩, htopology⟩)⟩
        · next htopology =>
          apply hgoes false htopology
          intro hpresent
          rw [hpresent.folder.1] at htopology
          cases htopology
        · next htopology =>
          split
          · next hreopened =>
            exact addTurn_spec ⟨hseen, ⟨online, honline, hne⟩, htopology, hreopened⟩ hreadable
          · next hreopened => exact hgoes true htopology fun hpresent => hreopened hpresent.folder.2

/-- The CPU that an entry adds to the topology. -/
def offer (direntp : Dirent) : Option TopologyInfo :=
  match scanTurn ⟨0, 0, 0⟩ direntp with
  | .add info => some info
  | _ => none

theorem offer_eq_some (hreadable : Readable direntp) :
    offer direntp = some info ↔ Offers direntp info := by
  have hspec : TurnSpec direntp (scanTurn ⟨0, 0, 0⟩ direntp) := scanTurn_spec hreadable
  unfold offer
  generalize scanTurn ⟨0, 0, 0⟩ direntp = result at hspec
  cases hspec with
  | next husable hnone => exact ⟨nofun, fun h => absurd h (hnone info)⟩
  | out hunusable => exact ⟨nofun, fun h => absurd hunusable h.usable⟩
  | add other hoffers =>
    exact ⟨fun h => Option.some.inj h ▸ hoffers, fun h => congrArg some (hoffers.unique h)⟩

def offered (entries : List Dirent) : List TopologyInfo :=
  entries.filterMap offer

theorem mem_offered (hreadable : ∀ direntp ∈ entries, Readable direntp) :
    info ∈ offered entries ↔ ∃ direntp ∈ entries, Offers direntp info := by
  rw [offered, List.mem_filterMap]
  exact exists_congr fun direntp => and_congr_right fun hmem =>
    offer_eq_some (hreadable direntp hmem)

theorem addTopoInfo_negative (hneg : ¬ NonNegative info) :
    addTopoInfo topo info = .error .assertion := by
  have hids : info.physicalId < 0 ∨ info.coreId < 0 ∨ info.cpuId < 0 := by
    rw [NonNegative] at hneg
    omega
  rw [addTopoInfo, if_pos hids]

theorem addTopoInfo_nonNegative (hids : NonNegative info) :
    ∃ topo', addTopoInfo topo info = .ok topo' := by
  have hnot : ¬ (info.physicalId < 0 ∨ info.coreId < 0 ∨ info.cpuId < 0) := by
    rw [NonNegative] at hids
    omega
  rw [addTopoInfo, if_neg hnot]
  split
  · exact ⟨_, rfl⟩
  · exact ⟨_, rfl⟩

/-! ## The loop -/

theorem scanLoop_cons {rest : List Dirent} {result : CpuTopology} (hreadable : Readable direntp)
    (hgo : ¬ Stops direntp) :
    scanLoop stack turn (direntp :: rest) result =
      Runs.run addTopoInfo result (offer direntp).toList >>= scanLoop stack (turn + 1) rest := by
  have hoffer : ∀ info, offer direntp = some info ↔ Offers direntp info := fun info =>
    offer_eq_some hreadable
  have hspec : TurnSpec direntp (scanTurn (stack turn) direntp) := scanTurn_spec hreadable
  rw [scanLoop]
  generalize scanTurn (stack turn) direntp = result' at hspec
  cases hspec with
  | next husable hnone =>
    have hnothing : offer direntp = none :=
      Option.eq_none_iff_forall_ne_some.mpr fun info h => hnone info ((hoffer info).mp h)
    rw [hnothing]
    rfl
  | out hunusable => exact absurd (.inl hunusable) hgo
  | add info hoffers =>
    rw [(hoffer info).mpr hoffers, Option.toList_some, Runs.run_cons]
    simp only
    cases addTopoInfo result info <;> rfl

theorem scanLoop_eq {result : CpuTopology} (hreadable : ∀ direntp ∈ entries, Readable direntp)
    (hgo : ∀ direntp ∈ entries, ¬ Stops direntp) :
    scanLoop stack turn entries result =
      (Runs.run addTopoInfo result (offered entries)).map some := by
  induction entries generalizing turn result with
  | nil => rfl
  | cons direntp rest ih =>
    rw [List.forall_mem_cons] at hreadable hgo
    have hoffered : offered (direntp :: rest) = (offer direntp).toList ++ offered rest := by
      rw [offered, List.filterMap_cons]
      cases offer direntp <;> rfl
    rw [scanLoop_cons hreadable.1 hgo.1, hoffered, Runs.run_append]
    cases Runs.run addTopoInfo result (offer direntp).toList with
    | error fault => rfl
    | ok next => exact ih hreadable.2 hgo.2

theorem offered_nonNegative (hreadable : ∀ direntp ∈ entries, Readable direntp)
    (hgo : ∀ direntp ∈ entries, ¬ Stops direntp) : ∀ info ∈ offered entries, NonNegative info := by
  intro info hinfo
  obtain ⟨direntp, hmem, hoffers⟩ := (mem_offered hreadable).mp hinfo
  by_contra hneg
  exact hgo direntp hmem (.inr ⟨info, hoffers, hneg⟩)

theorem topoFolderScan_eq (hreadable : ∀ direntp ∈ entries, Readable direntp)
    (hgo : ∀ direntp ∈ entries, ¬ Stops direntp)
    (hbuilt : addTopoInfos (offered entries) = .ok topo) :
    topoFolderScan stack (some entries) = .ok (some topo) := by
  have hrun : Runs.run addTopoInfo allocCpuTopoInfo (offered entries) = .ok topo := hbuilt
  rw [topoFolderScan, scanLoop_eq hreadable hgo, hrun]
  rfl

/-- Where the scan stops, and how. -/
def StoppedBy (direntp : Dirent) (result : Except Fault (Option CpuTopology)) : Prop :=
  Unusable direntp ∧ result = .ok none ∨
    (∃ info, Offers direntp info ∧ ¬ NonNegative info) ∧ result = .error .assertion

theorem scanLoop_stops {before after : List Dirent} {result : CpuTopology}
    (hreadable : ∀ other ∈ before ++ direntp :: after, Readable other)
    (hgo : ∀ earlier ∈ before, ¬ Stops earlier) (hstops : Stops direntp) :
    StoppedBy direntp (scanLoop stack turn (before ++ direntp :: after) result) := by
  induction before generalizing turn result with
  | nil =>
    have hspec : TurnSpec direntp (scanTurn (stack turn) direntp) :=
      scanTurn_spec (hreadable direntp List.mem_cons_self)
    rw [List.nil_append, scanLoop]
    generalize scanTurn (stack turn) direntp = result' at hspec
    cases hspec with
    | next husable hnone =>
      rcases hstops with hunusable | ⟨info, hoffers, -⟩
      · exact absurd hunusable husable
      · exact absurd hoffers (hnone info)
    | out hunusable => exact .inl ⟨hunusable, rfl⟩
    | add info hoffers =>
      rcases hstops with hunusable | ⟨other, hother, hneg⟩
      · exact absurd hunusable hoffers.usable
      · rw [hother.unique hoffers] at hneg
        simp only [addTopoInfo_negative hneg]
        exact .inr ⟨⟨info, hoffers, hneg⟩, rfl⟩
  | cons first rest ih =>
    obtain ⟨hfirst, hrest⟩ := List.forall_mem_cons.mp hreadable
    rw [List.forall_mem_cons] at hgo
    rw [List.cons_append, scanLoop_cons hfirst hgo.1]
    have hids : ∀ info ∈ (offer first).toList, NonNegative info := by
      intro info hinfo
      by_contra hneg
      have hoffers := (offer_eq_some hfirst).mp (Option.mem_toList.mp hinfo)
      exact hgo.1 (.inr ⟨info, hoffers, hneg⟩)
    obtain ⟨next, hrun⟩ : ∃ next,
        Runs.run addTopoInfo result (offer first).toList = .ok next := by
      cases hoffer : offer first with
      | none => exact ⟨result, rfl⟩
      | some info =>
        rw [hoffer] at hids
        have hadds : ∃ next, addTopoInfo result info = .ok next :=
          addTopoInfo_nonNegative (hids info (Option.mem_toList.mpr rfl))
        obtain ⟨next, hadd⟩ := hadds
        exact ⟨next, by rw [Option.toList_some, Runs.run_cons, hadd]; rfl⟩
    rw [hrun]
    exact ih hrest hgo.2

theorem exists_first_stop (hstop : ¬ ∀ direntp ∈ entries, ¬ Stops direntp) :
    ∃ before direntp after, entries = before ++ direntp :: after ∧
      (∀ earlier ∈ before, ¬ Stops earlier) ∧ Stops direntp := by
  induction entries with
  | nil => exact absurd (by simp) hstop
  | cons first rest ih =>
    by_cases hfirst : Stops first
    · exact ⟨[], first, rest, rfl, by simp, hfirst⟩
    · have hrest : ¬ ∀ direntp ∈ rest, ¬ Stops direntp := fun hall =>
        hstop (List.forall_mem_cons.mpr ⟨hfirst, hall⟩)
      obtain ⟨before, direntp, after, rfl, hbefore, hstops⟩ := ih hrest
      exact ⟨first :: before, direntp, after, rfl,
        List.forall_mem_cons.mpr ⟨hfirst, hbefore⟩, hstops⟩

/-- Where the ids of the CPUs can be read, a scan stops at the first entry that
cannot be used. Otherwise the topology holds exactly the CPUs that are online and
have a directory `topology`, and listing the same entries in another order gives
the same tree. -/
theorem folder_scan (stack : Nat → TopologyInfo) (entries : List Dirent)
    (hreadable : ∀ direntp ∈ entries, Readable direntp) :
    ((∀ direntp ∈ entries, ¬ Stops direntp) ∧
      ∃ topo, topoFolderScan stack (some entries) = .ok (some topo) ∧
        Canonical (offered entries) topo ∧
        (∀ info, info ∈ triples topo ↔ ∃ direntp ∈ entries, Offers direntp info) ∧
        ∀ (stack' : Nat → TopologyInfo) (entries' : List Dirent),
          (∀ direntp, direntp ∈ entries' ↔ direntp ∈ entries) →
          ∃ topo', topoFolderScan stack' (some entries') = .ok (some topo') ∧
            SameTree topo topo') ∨
    ∃ before direntp after, entries = before ++ direntp :: after ∧
      (∀ earlier ∈ before, ¬ Stops earlier) ∧
      StoppedBy direntp (topoFolderScan stack (some entries)) := by
  by_cases hgo : ∀ direntp ∈ entries, ¬ Stops direntp
  · left
    obtain ⟨topo, hbuilt, hcanonical, hsame⟩ :=
      addTopoInfos_canonical _ (offered_nonNegative hreadable hgo)
    refine ⟨hgo, topo, topoFolderScan_eq hreadable hgo hbuilt, hcanonical, ?_, ?_⟩
    · intro info
      rw [hcanonical.exact, mem_offered hreadable]
    · intro stack' entries' hmem
      have hgo' : ∀ direntp ∈ entries', ¬ Stops direntp := fun direntp hin =>
        hgo direntp ((hmem direntp).mp hin)
      have hreadable' : ∀ direntp ∈ entries', Readable direntp := fun direntp hin =>
        hreadable direntp ((hmem direntp).mp hin)
      have hoffered : ∀ info, info ∈ offered entries' ↔ info ∈ offered entries := by
        intro info
        simp only [mem_offered hreadable, mem_offered hreadable', hmem]
      obtain ⟨topo', hbuilt', htree⟩ := hsame _ hoffered
      exact ⟨topo', topoFolderScan_eq hreadable' hgo' hbuilt', htree⟩
  · right
    obtain ⟨before, direntp, after, rfl, hbefore, hstops⟩ := exists_first_stop hgo
    exact ⟨before, direntp, after, rfl, hbefore, scanLoop_stops hreadable hbefore hstops⟩

def listing : List Dirent :=
  let cpu (name : String) (online package : Option String) : Dirent :=
    { name := name.toList
      online := online.map String.toList
      topology := some true
      reopened := true
      coreId := some "0\n".toList
      physicalPackageId := package.map String.toList }
  [cpu "." none none, cpu "cpu1" (some "1\n") (some "1\n"), cpu "cpufreq" none none,
    cpu "cpu0" none (some "0\n"), cpu "cpu2" (some "0\n") none]

theorem readable_of_skipped (h : ignored direntp = true ∨ isOnline direntp = some 0 ∨
    (readInt direntp.coreId).isSome ∧ (readInt direntp.physicalPackageId).isSome) :
    Readable direntp := by
  intro hpresent
  rcases h with hignored | hoffline | hboth
  · rw [hpresent.seen] at hignored
    cases hignored
  · obtain ⟨online, honline, hne⟩ := hpresent.online
    rw [hoffline] at honline
    exact absurd (Option.some.inj honline).symm hne
  · exact hboth

theorem folder_scan_listing :
    ∃ topo, topoFolderScan (fun _ => ⟨7, 7, 7⟩) (some listing) = .ok (some topo) ∧
      Canonical [⟨1, 0, 1⟩, ⟨0, 0, 0⟩] topo := by
  have hreadable : ∀ direntp ∈ listing, Readable direntp := by
    intro direntp hmem
    have hall : ∀ direntp ∈ listing, ignored direntp = true ∨ isOnline direntp = some 0 ∨
        (readInt direntp.coreId).isSome ∧ (readInt direntp.physicalPackageId).isSome := by
      decide +kernel
    exact readable_of_skipped (hall direntp hmem)
  have hsome : (topoFolderScan (fun _ => ⟨7, 7, 7⟩) (some listing)).toOption.join.isSome := by
    decide +kernel
  have hoffered : offered listing = [⟨1, 0, 1⟩, ⟨0, 0, 0⟩] := by decide +kernel
  rcases folder_scan (fun _ => ⟨7, 7, 7⟩) listing hreadable with
    ⟨-, topo, hscan, hcanonical, -⟩ | ⟨before, direntp, after, -, -, hstopped⟩
  · exact ⟨topo, hscan, hoffered ▸ hcanonical⟩
  · rcases hstopped with ⟨-, hresult⟩ | ⟨-, hresult⟩
    · rw [hresult] at hsome
      cases hsome
    · rw [hresult] at hsome
      cases hsome

end Idlestat.Theory.SysfsTopology
