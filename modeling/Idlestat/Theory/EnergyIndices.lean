import Idlestat.Theory.EnergyOutline
import Idlestat.Theory.EnergyTemplate

/-! The indices into the table of clusters. The parser checks the number of a
cluster from above only, so a character before `A` goes in front of the table;
the consumption does not check the ids of the topology at all. -/
namespace Idlestat.Theory.EnergyIndices

open Idlestat.Library Idlestat.Library.Scan Idlestat.Library.TextFile Idlestat.Model.Topology
  Idlestat.Model.Cstates Idlestat.Model.Pstates Idlestat.Model.Recorder
  Idlestat.Model.TopologyFile Idlestat.Model.TraceLine Idlestat.Model.TraceFiles
  Idlestat.Model.EnergyModel Idlestat.Theory.TopologyNames Idlestat.Theory.EnergyTemplate
  Idlestat.Theory.EnergyOutline

/-! ## What is indexed -/

/-- A subscript of the table, or of the rows of one of its entries. -/
inductive Access
  | cluster (index : Int)
  | capState (i row : Nat)
  | cState (i row : Nat)

def Access.InRange (model : EnergyParse) : Access → Prop
  | .cluster index => 0 ≤ index ∧ index < model.clustersInEnergyFile
  | .capState i row => ∃ info, model.clusterEnergyTable[i]? = some info ∧
      row < info.numberCapStates ∧ info.pEnergy.length = info.numberCapStates
  | .cState i row => ∃ info, model.clusterEnergyTable[i]? = some info ∧
      row < info.numberCStates ∧ info.cEnergy.length = info.numberCStates

def rowAccesses (model : EnergyParse) (buffer : List Char) (i : Nat) : List Access :=
  match model.clusterEnergyTable[i]? with
  | none => []
  | some info =>
    match info.state with
    | .parsingCapStates =>
      match model.parsePstate buffer i info with
      | some _ => [.capState i model.currentPstate]
      | none => []
    | .parsingCStates =>
      match model.parseCstate buffer i info with
      | .ok (some _) => [.cState i model.currentCstate]
      | _ => []
    | _ => []

/-- The subscript in `clustp`, the sum of the table's address and the number of the
current cluster. -/
def clustpAccesses (model : EnergyParse) : List Access :=
  model.clustp.toList.map fun i : Nat => .cluster (i : Int)

/-- The subscripts of one round of the loop. -/
def accesses (env : ParseEnv) (model : EnergyParse) (buffer : List Char) : List Access :=
  match lineKind buffer with
  | .skipped | .clusters => []
  | .clusterInfo =>
    let index := clusterNumber env.signedChar (model.scanClusterInfo buffer).1
    if index ≥ toInt model.clustersInEnergyFile then [] else [.cluster index]
  | .pstates | .cstates | .wakeup =>
    if model.currentCluster = -1 then [] else clustpAccesses model
  | .row =>
    match model.clustp with
    | none => []
    | some i => .cluster i :: rowAccesses model buffer i

/-- The states of a record with something to look up for them. -/
def Entered (datas : CpuidleDatas) (cstates pstates : Option RecordRef) : Prop :=
  (∃ ref ∈ cstates, ∃ hits, cstateHits (datas.cstates ref) = .ok hits ∧ hits ≠ []) ∨
    ∃ ref ∈ pstates, ∃ hits, pstateHits (datas.pstates ref) = .ok hits ∧ hits ≠ []

/-- The consumption of a cluster looks into the table: a record of the cluster or
of one of its CPUs has hits. -/
def Consulted (datas : CpuidleDatas) (phy : CpuPhysical) : Prop :=
  Entered datas phy.cstates phy.pstates ∨
    ∃ core ∈ phy.coreHead, ∃ cpu ∈ core.cpuHead, Entered datas cpu.cstates cpu.pstates

/-- `current_cluster` of the consumption, an `unsigned int`. -/
def currentCluster (phy : CpuPhysical) : Nat :=
  (phy.physicalId % 2 ^ 32).toNat

def InfoParsed (env : ParseEnv) (file : List Char) (i : Nat) : Prop :=
  ∃ past buffer rest model, buffers bufsize file = past ++ buffer :: rest ∧
    Runs.run (round env) (startModel env) past = .ok model ∧ lineKind buffer = .clusterInfo ∧
    clusterNumber env.signedChar (model.scanClusterInfo buffer).1 = i

/-- No index of the parser is out of range, and if it accepts the file no index
of the consumption, where the lookups stay inside arrays that are there. -/
structure TableSafe (env : ParseEnv) (file : List Char) (datas : CpuidleDatas) : Prop where
  parser : Runs.EveryStep (round env)
    (fun model buffer => ∀ access ∈ accesses env model buffer, access.InRange model)
    (startModel env) (buffers bufsize file)
  consumer : ∀ model, parseEnergyModel env file = .ok (some model) →
    ∀ phy ∈ datas.topo.physicalHead, Consulted datas phy →
      currentCluster phy < model.clustersInEnergyFile ∧ InfoParsed env file (currentCluster phy) ∧
        ∃ info, model.tableEntry phy.physicalId = .ok info ∧ Allocated info

/-- The letter of a cluster line, or the last one where it has none, is not before
`A`, unless the check from above refuses even that. -/
def LetterAllowed (env : ParseEnv) (model : EnergyParse) (buffer : List Char) : Prop :=
  lineKind buffer = .clusterInfo →
    0 ≤ clusterNumber env.signedChar ((clusterLetter buffer).getD model.tmp) ∨
      toInt model.clustersInEnergyFile ≤
        clusterNumber env.signedChar ((clusterLetter buffer).getD model.tmp)

/-- The file has a cluster line for each cluster of the topology with hits. -/
def Lettered (env : ParseEnv) (file : List Char) (datas : CpuidleDatas) : Prop :=
  ∀ phy ∈ datas.topo.physicalHead, Consulted datas phy →
    ∃ part ∈ outline env.tmp (buffers bufsize file),
      clusterNumber env.signedChar part.letter = currentCluster phy

section Parser

variable {env : ParseEnv} {model : EnergyParse} {buffer : List Char} {parts : List Part} {i : Nat}

theorem toInt_le (n : Nat) : toInt n ≤ n := by
  unfold toInt Int.bmod
  dsimp only
  split <;> omega

theorem clustp_inRange (h : Follows env parts model) (hclustp : model.clustp = some i) :
    (Access.cluster i).InRange model := by
  cases parts with
  | nil =>
    rw [(h.start rfl).1] at hclustp
    cases hclustp
  | cons part rest =>
    obtain ⟨j, info, hat⟩ := h.latest part rest rfl
    obtain rfl := Option.some.inj (hat.clustp.symm.trans hclustp)
    have hj : j < model.clusterEnergyTable.length := (List.getElem?_eq_some_iff.mp hat.entry).1
    rw [h.length] at hj
    exact ⟨Int.natCast_nonneg j, Int.ofNat_lt.mpr hj⟩

theorem rows_inRange (h : Follows env parts model) (hclustp : model.clustp = some i) :
    ∀ access ∈ rowAccesses model buffer i, access.InRange model := by
  unfold rowAccesses
  split
  · simp
  · next info hinfo =>
    obtain ⟨part, rest, rfl, hat, halloc⟩ := exists_at h hclustp hinfo
    split
    · split
      · next next hrow =>
        intro access haccess
        rw [List.mem_singleton.mp haccess]
        unfold EnergyParse.parsePstate at hrow
        split at hrow
        · split at hrow
          · cases hrow
          · next hroom => exact ⟨info, hinfo, not_le.mp hroom, halloc.1⟩
        · cases hrow
      · simp
    · split
      · next next hrow =>
        intro access haccess
        rw [List.mem_singleton.mp haccess]
        unfold EnergyParse.parseCstate at hrow
        split at hrow
        · split at hrow
          · cases hrow
          · split at hrow
            · split at hrow
              · cases hrow
              · next hroom => exact ⟨info, hinfo, not_le.mp hroom, halloc.2⟩
            · cases hrow
        · cases hrow
      · simp
    · simp

theorem accesses_inRange (h : Follows env parts model) :
    (∀ access ∈ accesses env model buffer, access.InRange model) ↔
      LetterAllowed env model buffer := by
  unfold accesses LetterAllowed
  have hclustp : ∀ access ∈ (if model.currentCluster = -1 then [] else clustpAccesses model),
      access.InRange model := by
    split
    · simp
    · unfold clustpAccesses
      intro access haccess
      obtain ⟨i, hi, rfl⟩ := List.mem_map.mp haccess
      exact clustp_inRange h (Option.mem_toList.mp hi)
  cases hkind : lineKind buffer with
  | skipped => simp
  | clusters => simp
  | clusterInfo =>
    simp only [scanClusterInfo_letter, forall_const]
    generalize clusterNumber env.signedChar ((clusterLetter buffer).getD model.tmp) = index
    have hclusters := toInt_le model.clustersInEnergyFile
    split
    · next hrefused => simpa using Or.inr hrefused
    · next htaken =>
      have hbelow : index < model.clustersInEnergyFile := by omega
      have hmissed : ¬ toInt model.clustersInEnergyFile ≤ index := htaken
      simp only [List.mem_singleton, forall_eq, Access.InRange, hbelow, and_true, hmissed,
        or_false]
  | pstates => simpa using hclustp
  | cstates => simpa using hclustp
  | wakeup => simpa using hclustp
  | row =>
    simp only [reduceCtorEq, false_implies, iff_true]
    split
    · simp
    · next i hi =>
      intro access haccess
      cases List.mem_cons.mp haccess with
      | inl heq => exact heq ▸ clustp_inRange h hi
      | inr hrow => exact rows_inRange h hi access hrow

theorem parser_safe (env : ParseEnv) (lines : List (List Char)) :
    Runs.EveryStep (round env)
        (fun model buffer => ∀ access ∈ accesses env model buffer, access.InRange model)
        (startModel env) lines ↔
      Runs.EveryStep (round env) (LetterAllowed env) (startModel env) lines := by
  constructor
  · intro h past buffer rest model hlines hrun
    exact (accesses_inRange (follows_run hrun)).mp (h past buffer rest model hlines hrun)
  · intro h past buffer rest model hlines hrun
    exact (accesses_inRange (follows_run hrun)).mpr (h past buffer rest model hlines hrun)

end Parser

section Consumer

variable {env : ParseEnv} {model : EnergyParse} {buffer : List Char} {parts : List Part}
  {part : Part} {file : List Char} {lines : List (List Char)} {tmp : Char}

theorem letter_extend (h : part ∈ extend tmp parts buffer) :
    (∃ old ∈ parts, old.letter = part.letter) ∨ (lineKind buffer = .clusterInfo ∧
      part.letter = (clusterLetter buffer).getD (lastLetter tmp parts)) := by
  have hkept : (∃ old ∈ parts, old.letter = part.letter ∧ old.states = part.states) →
      ∃ old ∈ parts, old.letter = part.letter :=
    fun ⟨old, hold, hletter, _⟩ => ⟨old, hold, hletter⟩
  unfold extend at h
  cases hkind : lineKind buffer with
  | clusterInfo =>
    simp only [hkind] at h
    cases List.mem_cons.mp h with
    | inl heq => exact .inr ⟨rfl, heq ▸ rfl⟩
    | inr hmem => exact .inl ⟨part, hmem, rfl⟩
  | pstates | cstates =>
    simp only [hkind] at h
    exact .inl (hkept (mem_openPart h))
  | row =>
    simp only [hkind] at h
    exact .inl (hkept (mem_addRow h))
  | skipped | clusters | wakeup =>
    simp only [hkind] at h
    exact .inl ⟨part, h, rfl⟩

theorem letter_kept (buffer : List Char) (h : part ∈ parts) :
    ∃ new ∈ extend tmp parts buffer, new.letter = part.letter := by
  unfold extend
  obtain ⟨first, rest, rfl⟩ := List.exists_cons_of_ne_nil (List.ne_nil_of_mem h)
  split
  · exact ⟨part, List.mem_cons_of_mem _ h, rfl⟩
  · exact ⟨part, List.mem_cons_of_mem _ h, rfl⟩
  · exact ⟨part, List.mem_cons_of_mem _ h, rfl⟩
  · cases List.mem_cons.mp h with
    | inl heq => exact ⟨_, List.mem_cons_self, heq ▸ rfl⟩
    | inr hmem => exact ⟨part, List.mem_cons_of_mem _ hmem, rfl⟩
  · exact ⟨part, h, rfl⟩

theorem letter_kept_run (lines : List (List Char)) (h : part ∈ parts) :
    ∃ new ∈ lines.foldl (extend tmp) parts, new.letter = part.letter := by
  induction lines generalizing parts part with
  | nil => exact ⟨part, h, rfl⟩
  | cons buffer lines ih =>
    obtain ⟨new, hnew, hletter⟩ := letter_kept buffer h
    obtain ⟨last, hlast, heq⟩ := ih hnew
    exact ⟨last, hlast, heq.trans hletter⟩

/-- In lines that were not refused, each letter was taken from a cluster line. -/
theorem letter_parsed (h : Runs.run (round env) (startModel env) lines = .ok model) :
    ∀ part ∈ outline env.tmp lines, ∃ past buffer rest state, lines = past ++ buffer :: rest ∧
      Runs.run (round env) (startModel env) past = .ok state ∧ lineKind buffer = .clusterInfo ∧
      (state.scanClusterInfo buffer).1 = part.letter := by
  induction lines using List.reverseRecOn generalizing model with
  | nil => simp [outline]
  | append_singleton past buffer ih =>
    obtain ⟨state, hpast, -⟩ := Runs.exists_of_run_concat h
    intro part hpart
    rw [outline_concat] at hpart
    cases letter_extend hpart with
    | inl hold =>
      obtain ⟨old, hmem, hletter⟩ := hold
      obtain ⟨before, line, rest, state, hsplit, hrun, hkind, hscan⟩ := ih hpast old hmem
      exact ⟨before, line, rest ++ [buffer], state, by simp [hsplit], hrun, hkind,
        hscan.trans hletter⟩
    | inr hnew =>
      have htmp : state.tmp = lastLetter env.tmp (outline env.tmp past) :=
        tmp_eq (follows_run hpast)
      refine ⟨past, buffer, [], state, rfl, hpast, hnew.1, ?_⟩
      rw [scanClusterInfo_letter, htmp, hnew.2]

theorem infoParsed_iff {i : Nat}
    (h : Runs.run (round env) (startModel env) (buffers bufsize file) = .ok model) :
    InfoParsed env file i ↔ ∃ part ∈ outline env.tmp (buffers bufsize file),
      clusterNumber env.signedChar part.letter = i := by
  constructor
  · intro hparsed
    obtain ⟨past, buffer, rest, state, hlines, hrun, hkind, hnumber⟩ := hparsed
    have htmp : state.tmp = lastLetter env.tmp (outline env.tmp past) := tmp_eq (follows_run hrun)
    have hfirst : ⟨(state.scanClusterInfo buffer).1, declaredStates buffer, .parsedClusterInfo,
        []⟩ ∈ extend env.tmp (outline env.tmp past) buffer := by
      rw [extend, hkind, scanClusterInfo_letter, htmp]
      exact List.mem_cons_self
    obtain ⟨last, hlast, hletter⟩ := letter_kept_run rest hfirst
    refine ⟨last, ?_, hletter ▸ hnumber⟩
    rw [hlines, outline, List.foldl_append]
    exact hlast
  · intro hpart
    obtain ⟨part, hmem, hnumber⟩ := hpart
    obtain ⟨past, buffer, rest, state, hlines, hrun, hkind, hscan⟩ := letter_parsed h part hmem
    exact ⟨past, buffer, rest, state, hlines, hrun, hkind, hscan ▸ hnumber⟩

theorem consumer_safe {phy : CpuPhysical}
    (h : parseEnergyModel env file = .ok (some model)) :
    (currentCluster phy < model.clustersInEnergyFile ∧ InfoParsed env file (currentCluster phy) ∧
        ∃ info, model.tableEntry phy.physicalId = .ok info ∧ Allocated info) ↔
      ∃ part ∈ outline env.tmp (buffers bufsize file),
        clusterNumber env.signedChar part.letter = currentCluster phy := by
  have hrun := parseLines_eq_ok.mp h
  have hfollows := follows_run hrun
  constructor
  · intro hsafe
    exact (infoParsed_iff hrun).mp hsafe.2.1
  · intro hpart
    obtain ⟨part, hmem, hnumber⟩ := hpart
    obtain ⟨i, info, hi, hentry, halloc⟩ := hfollows.declared part hmem
    obtain rfl := Int.ofNat_inj.mp (hi.symm.trans hnumber)
    have hbelow : currentCluster phy < model.clusterEnergyTable.length :=
      (List.getElem?_eq_some_iff.mp hentry).1
    have htable : model.tableEntry phy.physicalId = .ok info := by
      change (match model.clusterEnergyTable[currentCluster phy]? with
        | none => Except.error Fault.outOfBounds
        | some info => .ok info) = .ok info
      rw [hentry]
    rw [hfollows.length] at hbelow
    exact ⟨hbelow, (infoParsed_iff hrun).mpr ⟨part, hmem, hnumber⟩, info, htable, halloc⟩

end Consumer

section Consumption

variable {model other : EnergyParse} {datas : CpuidleDatas} {phy : CpuPhysical} {cluster : Int}

theorem findEntry_ok {α : Type} (found : α → Bool) {n : Nat} {entries : List α}
    (h : n ≤ entries.length) : ∃ result, findEntry found n entries = .ok result := by
  induction n generalizing entries with
  | zero => exact ⟨none, rfl⟩
  | succ n ih =>
    cases entries with
    | nil => cases h
    | cons entry rest =>
      rw [findEntry]
      split
      · exact ⟨_, rfl⟩
      · exact ih (Nat.le_of_succ_le_succ h)

theorem lookups_ok {info : ClusterEnergyInfo} (hentry : model.tableEntry cluster = .ok info)
    (halloc : Allocated info) (name : List Char) (speed : Nat) :
    (∃ cp, model.findCstateEnergyInfo cluster name = .ok cp) ∧
      ∃ pp, model.findPstateEnergyInfo cluster speed = .ok pp := by
  unfold EnergyParse.findCstateEnergyInfo EnergyParse.findPstateEnergyInfo
  rw [hentry]
  exact ⟨findEntry_ok _ (le_of_eq halloc.2.symm), findEntry_ok _ (le_of_eq halloc.1.symm)⟩

section Hits

variable {α : Type} {found : Except Fault (List α)} {hits : List α}
  {step other : ℚ → α → Except Fault ℚ} {start final : ℚ}

theorem hit_ok (h : (found >>= fun hits => hits.foldlM step start) = .ok final)
    (hfound : found = .ok hits) (hne : hits ≠ []) :
    ∃ hit sum, step start hit = .ok sum := by
  obtain ⟨first, rest, rfl⟩ := List.exists_cons_of_ne_nil hne
  rw [hfound] at h
  obtain ⟨hits, heq, hfold⟩ := Runs.bind_eq_ok h
  obtain rfl := Except.ok.inj heq
  obtain ⟨sum, hfirst, -⟩ := Runs.bind_eq_ok hfold
  exact ⟨first, sum, hfirst⟩

theorem hits_eq (h : ∀ hits, found = .ok hits → hits = []) :
    (found >>= fun hits => hits.foldlM step start) =
      found >>= fun hits => hits.foldlM other start := by
  cases hfound : found with
  | error fault => rfl
  | ok hits =>
    rw [h hits hfound]
    rfl

end Hits

theorem addIdle_entry {power : CstateEnergyInfo → Nat} {cstates : CpuidleCstates} {idl sum : ℚ}
    {hits : List CpuidleCstate} (h : model.addIdle cluster power cstates idl = .ok sum)
    (hhits : cstateHits cstates = .ok hits) (hne : hits ≠ []) :
    ∃ info, model.tableEntry cluster = .ok info := by
  obtain ⟨c, sum', hfirst⟩ := hit_ok h hhits hne
  obtain ⟨cp, hlookup, -⟩ := Runs.bind_eq_ok hfirst
  obtain ⟨info, hentry, -⟩ := Runs.bind_eq_ok hlookup
  exact ⟨info, hentry⟩

theorem addCap_entry {power : PstateEnergyInfo → Nat} {pstates : CpufreqPstates} {cap sum : ℚ}
    {hits : List CpufreqPstate} (h : model.addCap cluster power pstates cap = .ok sum)
    (hhits : pstateHits pstates = .ok hits) (hne : hits ≠ []) :
    ∃ info, model.tableEntry cluster = .ok info := by
  obtain ⟨p, sum', hfirst⟩ := hit_ok h hhits hne
  obtain ⟨pp, hlookup, -⟩ := Runs.bind_eq_ok hfirst
  obtain ⟨info, hentry, -⟩ := Runs.bind_eq_ok hlookup
  exact ⟨info, hentry⟩

variable {idlePower : CstateEnergyInfo → Nat} {power : PstateEnergyInfo → Nat}
  {cstates pstates : Option RecordRef} {sums sums' : ℚ × ℚ}

theorem addRecords_entry
    (h : model.addRecords cluster datas idlePower power cstates pstates sums = .ok sums')
    (hentered : Entered datas cstates pstates) : ∃ info, model.tableEntry cluster = .ok info := by
  obtain ⟨cref, hcref, h⟩ := Runs.bind_eq_ok h
  obtain ⟨idl, hidl, h⟩ := Runs.bind_eq_ok h
  obtain ⟨pref, hpref, h⟩ := Runs.bind_eq_ok h
  obtain ⟨cap, hcap, -⟩ := Runs.bind_eq_ok h
  cases hentered with
  | inl hidle =>
    obtain ⟨ref, href, hits, hhits, hne⟩ := hidle
    rw [Option.mem_def.mp href] at hcref
    obtain rfl := Except.ok.inj hcref
    exact addIdle_entry hidl hhits hne
  | inr hrun =>
    obtain ⟨ref, href, hits, hhits, hne⟩ := hrun
    rw [Option.mem_def.mp href] at hpref
    obtain rfl := Except.ok.inj hpref
    exact addCap_entry hcap hhits hne

theorem clusterEnergy_entry {energy : ClusterEnergy}
    (h : model.clusterEnergy datas phy = .ok energy) (hconsulted : Consulted datas phy) :
    ∃ info, model.tableEntry phy.physicalId = .ok info := by
  obtain ⟨own, hown, h⟩ := Runs.bind_eq_ok h
  obtain ⟨all, hcores, -⟩ := Runs.bind_eq_ok h
  cases hconsulted with
  | inl hcluster => exact addRecords_entry hown hcluster
  | inr hcpus =>
    obtain ⟨core, hcore, cpu, hcpu, hentered⟩ := hcpus
    obtain ⟨sums, sums', hcpus⟩ := Runs.foldlM_ok_of_mem hcores hcore
    obtain ⟨sums, sums', hcpu⟩ := Runs.foldlM_ok_of_mem hcpus hcpu
    exact addRecords_entry hcpu hentered

theorem calculate_entry {report : EnergyReport}
    (h : model.calculateEnergyConsumption datas = .ok report) :
    ∀ phy ∈ datas.topo.physicalHead, Consulted datas phy →
      ∃ info, model.tableEntry phy.physicalId = .ok info := by
  intro phy hphy hconsulted
  obtain ⟨clusters, hclusters, -⟩ := Runs.bind_eq_ok h
  obtain ⟨energy, henergy⟩ := Runs.mapM_ok_of_mem hclusters hphy
  exact clusterEnergy_entry henergy hconsulted

theorem addRecords_eq (h : ¬ Entered datas cstates pstates) :
    model.addRecords cluster datas idlePower power cstates pstates sums =
      other.addRecords cluster datas idlePower power cstates pstates sums := by
  have hidle : ∀ ref ∈ cstates, ∀ hits, cstateHits (datas.cstates ref) = .ok hits → hits = [] :=
    fun ref href hits hhits => by_contra fun hne => h (.inl ⟨ref, href, hits, hhits, hne⟩)
  have hcap : ∀ ref ∈ pstates, ∀ hits, pstateHits (datas.pstates ref) = .ok hits → hits = [] :=
    fun ref href hits hhits => by_contra fun hne => h (.inr ⟨ref, href, hits, hhits, hne⟩)
  unfold EnergyParse.addRecords
  cases cstates with
  | none => rfl
  | some cref =>
    change (model.addIdle cluster idlePower (datas.cstates cref) sums.1 >>= _) =
      (other.addIdle cluster idlePower (datas.cstates cref) sums.1 >>= _)
    have hsame : model.addIdle cluster idlePower (datas.cstates cref) sums.1 =
        other.addIdle cluster idlePower (datas.cstates cref) sums.1 := hits_eq (hidle cref rfl)
    rw [hsame]
    congr 1
    funext idl
    cases pstates with
    | none => rfl
    | some pref =>
      change (model.addCap cluster power (datas.pstates pref) sums.2 >>= _) =
        (other.addCap cluster power (datas.pstates pref) sums.2 >>= _)
      have hsame : model.addCap cluster power (datas.pstates pref) sums.2 =
          other.addCap cluster power (datas.pstates pref) sums.2 := hits_eq (hcap pref rfl)
      rw [hsame]

/-- No other cluster looks into the table: what is printed does not depend on it. -/
theorem clusterEnergy_eq (h : ¬ Consulted datas phy) :
    model.clusterEnergy datas phy = other.clusterEnergy datas phy := by
  have hown : ¬ Entered datas phy.cstates phy.pstates := fun hentered => h (.inl hentered)
  have hcpus : ∀ core ∈ phy.coreHead, ∀ cpu ∈ core.cpuHead,
      ¬ Entered datas cpu.cstates cpu.pstates :=
    fun core hcore cpu hcpu hentered => h (.inr ⟨core, hcore, cpu, hcpu, hentered⟩)
  unfold EnergyParse.clusterEnergy
  dsimp only
  have hfirst : model.addRecords phy.physicalId datas CstateEnergyInfo.clusterIdlePower
      PstateEnergyInfo.clusterPower phy.cstates phy.pstates (0, 0) =
        other.addRecords phy.physicalId datas CstateEnergyInfo.clusterIdlePower
          PstateEnergyInfo.clusterPower phy.cstates phy.pstates (0, 0) := addRecords_eq hown
  rw [hfirst]
  congr 1
  funext own
  congr 1
  apply Runs.foldlM_congr
  intro core hcore sums
  apply Runs.foldlM_congr
  intro cpu hcpu sums
  exact addRecords_eq (hcpus core hcore cpu hcpu)

end Consumption

/-- For every file and topology, the table is indexed in range exactly when no
cluster line leads in front of the table and, if the file is accepted, each
cluster with hits has a cluster line. -/
theorem table_safe (env : ParseEnv) (file : List Char) (datas : CpuidleDatas) :
    TableSafe env file datas ↔
      Runs.EveryStep (round env) (LetterAllowed env) (startModel env) (buffers bufsize file) ∧
        ∀ model, parseEnergyModel env file = .ok (some model) → Lettered env file datas := by
  constructor
  · intro h
    refine ⟨(parser_safe env _).mp h.parser, ?_⟩
    intro model haccepted phy hphy hconsulted
    exact (consumer_safe haccepted).mp (h.consumer model haccepted phy hphy hconsulted)
  · intro h
    refine ⟨(parser_safe env _).mpr h.1, ?_⟩
    intro model haccepted phy hphy hconsulted
    exact (consumer_safe haccepted).mpr (h.2 model haccepted phy hphy hconsulted)

def countLine : List Char := "clusters 1\n".toList

def digitLine : List Char := "cluster1: 1 cap states 1 C states\n".toList

theorem digit_refuted (env : ParseEnv) (datas : CpuidleDatas) :
    ¬ TableSafe env (countLine ++ digitLine) datas := by
  intro h
  have hlines : buffers bufsize (countLine ++ digitLine) = [countLine] ++ digitLine :: [] := by
    decide +kernel
  have hcount : lineKind countLine = .clusters := by decide +kernel
  have hclusters : clusterCount countLine = 1 := by decide +kernel
  have hdigit : lineKind digitLine = .clusterInfo := by decide +kernel
  have hletter : clusterLetter digitLine = some '1' := by decide +kernel
  have hnumber : ∀ signedChar, clusterNumber signedChar '1' = -16 := by decide
  have hround : round env (startModel env) countLine = .ok { startModel env with
      clustersInEnergyFile := 1
      clusterEnergyTable := [env.table 0] } := by
    rw [round_eq_ok, parseLine_eq, hcount]
    dsimp only
    rw [parseClusters_eq rfl, hclusters]
    rfl
  have hstart : Runs.run (round env) (startModel env) [] = .ok (startModel env) := rfl
  have hfirst : Runs.run (round env) (startModel env) [countLine] =
      round env (startModel env) countLine := Runs.run_concat hstart
  have hallowed := (parser_safe env _).mp h.parser [countLine] digitLine [] _ hlines
    (hfirst.trans hround) hdigit
  rw [hletter, Option.getD_some, hnumber] at hallowed
  have htoInt : toInt ((1 : Nat) : Int) = 1 := by decide
  change (0 : Int) ≤ -16 ∨ toInt ((1 : Nat) : Int) ≤ -16 at hallowed
  omega

/-- A loaded trace with this file, whatever the locals hold at the start. -/
theorem table_safe_digit : ∃ datas, traceLoad namedEnv .ftrace idleTrace = .ok (some datas) ∧
    ∀ env, ¬ TableSafe env (countLine ++ digitLine) datas := by
  obtain ⟨datas, hload, -⟩ := load_idle
  exact ⟨datas, hload, fun env => digit_refuted env datas⟩

end Idlestat.Theory.EnergyIndices
