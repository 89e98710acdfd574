import Idlestat.Model.TopologyFile
import Idlestat.Theory.TopologyCanonical

/-! The topology section read back. Lines of cores and CPUs survive, but the
cluster id goes through one `char`: a tree comes back exactly when every
cluster id leaves room for it. -/
namespace Idlestat.Theory.TopologyRoundTrip

open Idlestat.Library Idlestat.Library.Scan Idlestat.Library.TextFile Idlestat.Model.Topology
  Idlestat.Model.TopologyFile Idlestat.Theory.TopologyTree Idlestat.Theory.TopologyCanonical

/-- The last cluster id whose letter is a `char`. -/
def lastCluster (signedChar : Bool) : Int :=
  if signedChar then 62 else 190

def IsId (n : Int) : Prop :=
  0 ≤ n ∧ n ≤ intMax

/-- `"cpuid %d:\n"` -/
def cpuidText (cpuId : Int) : List Char :=
  "cpuid ".toList ++ printInt cpuId ++ [':', '\n']

section Lines

variable {n : Int} {signedChar : Bool}

theorem toNat_ofNat_byte {n : Nat} (hn : n < 256) : (Char.ofNat n).toNat = n := by
  have hvalid : n.isValidChar := .inl (by omega)
  rw [Char.ofNat, dif_pos hvalid]
  rfl

theorem toNat_printChar (h : 0 ≤ n) (hlast : n ≤ lastCluster signedChar) :
    (printChar (n + 65)).toNat = (n + 65).toNat := by
  unfold lastCluster at hlast
  rw [printChar, toNat_ofNat_byte] <;> split at hlast <;> omega

theorem charValue_printChar (h : 0 ≤ n) (hlast : n ≤ lastCluster signedChar) :
    charValue signedChar (printChar (n + 65)) - 65 = n := by
  unfold charValue
  rw [toNat_printChar h hlast]
  unfold lastCluster at hlast
  cases signedChar <;> simp at hlast ⊢ <;> omega

theorem charValue_le (c : Char) : charValue signedChar c - 65 ≤ lastCluster signedChar := by
  unfold charValue lastCluster
  cases signedChar <;> simp <;> omega

theorem scan_number (hn : IsId n) {c : Char} (hc : c.isDigit = false) (rest : List Char) :
    sscanf [.conv .d] (printInt n ++ c :: rest) = ⟨[.int n], false⟩ := by
  obtain ⟨hnonneg, hmax⟩ := hn
  have hstop : NoDigit (c :: rest) := by
    intro c' hc'
    rw [← Option.some.inj hc']
    exact hc
  have hcast : ((n.toNat : Nat) : Int) = n := Int.toNat_of_nonneg hnonneg
  rw [printInt_of_nonneg hnonneg, sscanf_d (by omega) hstop, hcast]
  rfl

theorem scan_core (hn : IsId n) : sscanf coreFormat (coreText n) = ⟨[.int n], false⟩ := by
  have hword : sscanf coreFormat (coreText n) = sscanf [.conv .d] (printInt n ++ ['\n']) :=
    sscanf_lits "core".toList
  rw [hword]
  exact scan_number hn rfl []

theorem scan_htCpu (hn : IsId n) : sscanf htCpuFormat (cpuText n) = ⟨[.int n], false⟩ := by
  have hword : sscanf htCpuFormat (cpuText n) = sscanf [.conv .d] (printInt n ++ ['\n']) :=
    sscanf_lits "cpu".toList
  rw [hword]
  exact scan_number hn rfl []

variable {reader : TopoReader}

theorem coreLine_core (hn : IsId n) (isHt : Bool) :
    coreLine signedChar isHt reader (coreText n) = .ok (.fetch { reader with
      loop := .cores true, info := { reader.info with coreId := n } }) := by
  simp [coreLine, scan_core hn, Result.ret, assignedInt]

theorem coreLine_cpu (hn : IsId n) :
    coreLine signedChar true reader (cpuText n) = (do
      let topo ← addTopoInfo reader.topo { reader.info with cpuId := n }
      .ok (.fetch { reader with info := { reader.info with cpuId := n }, topo := topo })) := by
  have hcore : sscanf coreFormat (cpuText n) = ⟨[], false⟩ := rfl
  simp [coreLine, hcore, scan_htCpu hn, Result.ret, assignedInt, cpuInfo]

theorem coreLine_other (signedChar : Bool) (reader : TopoReader) {buf : List Char} {isHt : Bool}
    (hcore : sscanf coreFormat buf = ⟨[], false⟩)
    (hcpu : sscanf (if isHt then htCpuFormat else cpuFormat) buf = ⟨[], false⟩) :
    ∃ info, coreLine signedChar isHt reader buf =
      .ok (clusterLine signedChar { reader with info := info } buf) := by
  refine ⟨cpuInfo isHt ⟨[], false⟩ reader.info, ?_⟩
  simp [coreLine, hcore, hcpu, Result.ret]

theorem topoLine_cluster (reader : TopoReader) (h : 0 ≤ n) (hlast : n ≤ lastCluster signedChar) :
    ∃ reader', topoLine signedChar reader (clusterText n) = .ok (.fetch reader') ∧
      reader'.loop = .cores false ∧ reader'.info.physicalId = n ∧ reader'.topo = reader.topo := by
  have hscan : sscanf clusterFormat (clusterText n) = ⟨[.char (printChar (n + 65))], false⟩ := rfl
  have hcluster : ∀ reader : TopoReader, ∃ reader',
      clusterLine signedChar reader (clusterText n) = .fetch reader' ∧
        reader'.loop = .cores false ∧ reader'.info.physicalId = n ∧
        reader'.topo = reader.topo := by
    intro reader
    refine ⟨{ reader with
      loop := .cores false
      pid := printChar (n + 65)
      info := { reader.info with
        physicalId := charValue signedChar (printChar (n + 65)) - 65 } }, ?_, rfl, ?_, rfl⟩
    · simp [clusterLine, hscan, Result.ret, assignedChar]
    · exact charValue_printChar h hlast
  cases hloop : reader.loop with
  | clusters =>
    obtain ⟨reader', heq, hreader'⟩ := hcluster reader
    refine ⟨reader', ?_, hreader'⟩
    rw [← heq, topoLine, hloop]
    rfl
  | cores isHt =>
    have hcore : sscanf coreFormat (clusterText n) = ⟨[], false⟩ := rfl
    have hcpu : sscanf (if isHt then htCpuFormat else cpuFormat) (clusterText n) = ⟨[], false⟩ := by
      cases isHt <;> rfl
    obtain ⟨info, hline⟩ := coreLine_other signedChar reader hcore hcpu
    obtain ⟨reader', heq, hreader'⟩ := hcluster { reader with info := info }
    refine ⟨reader', ?_, hreader'⟩
    rw [← heq, ← hline, topoLine, hloop]
    rfl

theorem topoLine_cpuid : topoLine signedChar reader (cpuidText n) = .ok .leave := by
  have hcluster : ∀ reader, clusterLine signedChar reader (cpuidText n) = .leave :=
    fun reader => rfl
  cases hloop : reader.loop with
  | clusters =>
    rw [topoLine, hloop]
    rfl
  | cores isHt =>
    have hcore : sscanf coreFormat (cpuidText n) = ⟨[], false⟩ := rfl
    have hcpu : sscanf (if isHt then htCpuFormat else cpuFormat) (cpuidText n) = ⟨[], false⟩ := by
      cases isHt <;> rfl
    obtain ⟨info, hline⟩ := coreLine_other signedChar reader hcore hcpu
    rw [hcluster] at hline
    rw [← hline, topoLine, hloop]
    rfl

end Lines

/-! ## Runs of lines -/

/-- Reading the lines takes one reader to the other and adds the CPUs. -/
structure Reads (signedChar : Bool) (reader : TopoReader) (lines : List (List Char))
    (infos : List TopologyInfo) (reader' : TopoReader) : Prop where
  consumes : ∀ rest, readTopoLines signedChar reader (lines ++ rest) =
    readTopoLines signedChar reader' rest
  has : ∀ x, TopoHas reader'.topo x ↔ TopoHas reader.topo x ∨ x ∈ infos

/-- The reader is among the lines of a cluster. -/
structure Inside (physicalId : Int) (reader : TopoReader) : Prop where
  loop : ∃ isHt, reader.loop = .cores isHt
  cluster : reader.info.physicalId = physicalId
  wf : TopoWf reader.topo

section Runs

variable {signedChar : Bool} {reader reader' reader'' : TopoReader}
  {lines lines' : List (List Char)} {infos infos' : List TopologyInfo} {p k : Int}

theorem Reads.nil : Reads signedChar reader [] [] reader where
  consumes := fun _ => rfl
  has := by simp

theorem Reads.append (h : Reads signedChar reader lines infos reader')
    (h' : Reads signedChar reader' lines' infos' reader'') :
    Reads signedChar reader (lines ++ lines') (infos ++ infos') reader'' where
  consumes := by
    intro rest
    rw [List.append_assoc, h.consumes, h'.consumes]
  has := by
    intro x
    rw [h'.has, h.has, List.mem_append, or_assoc]

theorem Reads.single {line : List Char}
    (hline : topoLine signedChar reader line = .ok (.fetch reader'))
    (hhas : ∀ x, TopoHas reader'.topo x ↔ TopoHas reader.topo x ∨ x ∈ infos) :
    Reads signedChar reader [line] infos reader' where
  consumes := by
    intro rest
    rw [List.singleton_append, readTopoLines, hline]
    rfl
  has := hhas

theorem reads_cpu (signedChar : Bool) (h : Inside p reader) (hht : reader.loop = .cores true)
    (hcore : reader.info.coreId = k) {x : Int} (hp : 0 ≤ p) (hk : 0 ≤ k) (hx : IsId x) :
    ∃ reader', Reads signedChar reader [cpuText x] [⟨p, k, x⟩] reader' ∧ Inside p reader' ∧
      reader'.loop = .cores true ∧ reader'.info.coreId = k := by
  have hinfo : { reader.info with cpuId := x } = (⟨p, k, x⟩ : TopologyInfo) := by
    change (⟨reader.info.physicalId, reader.info.coreId, x⟩ : TopologyInfo) = _
    rw [h.cluster, hcore]
  obtain ⟨topo', hadd, hwf, hhas⟩ : ∃ topo', addTopoInfo reader.topo ⟨p, k, x⟩ = .ok topo' ∧
      TopoWf topo' ∧ ∀ y, TopoHas topo' y ↔ y = ⟨p, k, x⟩ ∨ TopoHas reader.topo y :=
    addTopoInfo_spec h.wf hp hk hx.1
  refine ⟨{ reader with info := ⟨p, k, x⟩, topo := topo' }, ?_, ⟨⟨true, hht⟩, rfl, hwf⟩, hht, rfl⟩
  apply Reads.single
  · have hline : topoLine signedChar reader (cpuText x) =
        coreLine signedChar true reader (cpuText x) := by
      rw [topoLine, hht]
      rfl
    rw [hline, coreLine_cpu hx, hinfo, hadd]
    rfl
  · intro y
    rw [hhas, List.mem_singleton, or_comm]

theorem reads_cpus (signedChar : Bool) (h : Inside p reader) (hht : reader.loop = .cores true)
    (hcore : reader.info.coreId = k) (hp : 0 ≤ p) (hk : 0 ≤ k) {cpus : List CpuCpu}
    (hcpus : ∀ cpu ∈ cpus, IsId cpu.cpuId) :
    ∃ reader', Reads signedChar reader (cpus.map fun cpu => cpuText cpu.cpuId)
      (cpus.map fun cpu => ⟨p, k, cpu.cpuId⟩) reader' ∧ Inside p reader' := by
  induction cpus generalizing reader with
  | nil => exact ⟨reader, .nil, h⟩
  | cons cpu cpus ih =>
    obtain ⟨reader', hread, hinside, hht', hcore'⟩ :=
      reads_cpu signedChar h hht hcore hp hk (hcpus cpu (by simp))
    obtain ⟨reader'', hread', hinside'⟩ :=
      ih hinside hht' hcore' fun cpu hcpu => hcpus cpu (by simp [hcpu])
    exact ⟨reader'', hread.append hread', hinside'⟩

def coreLines (core : CpuCore) : List (List Char) :=
  coreText core.coreId :: core.cpuHead.map fun cpu => cpuText cpu.cpuId

def clusterLines (phy : CpuPhysical) : List (List Char) :=
  clusterText phy.physicalId :: phy.coreHead.flatMap coreLines

/-- Every id below the cluster fits an `int`. -/
def CoreFits (core : CpuCore) : Prop :=
  IsId core.coreId ∧ ∀ cpu ∈ core.cpuHead, IsId cpu.cpuId

theorem reads_core (signedChar : Bool) (h : Inside p reader) (hp : 0 ≤ p) {core : CpuCore}
    (hcore : CoreFits core) :
    ∃ reader', Reads signedChar reader (coreLines core)
      (core.cpuHead.map fun cpu => ⟨p, core.coreId, cpu.cpuId⟩) reader' ∧ Inside p reader' := by
  obtain ⟨isHt, hloop⟩ := h.loop
  have hline : topoLine signedChar reader (coreText core.coreId) = .ok (.fetch { reader with
      loop := .cores true, info := { reader.info with coreId := core.coreId } }) := by
    rw [← coreLine_core hcore.1 isHt, topoLine, hloop]
    rfl
  have hread : Reads signedChar reader [coreText core.coreId] [] { reader with
      loop := .cores true, info := { reader.info with coreId := core.coreId } } :=
    .single hline (by simp)
  have hcoreInside : Inside p { reader with
      loop := .cores true, info := { reader.info with coreId := core.coreId } } :=
    ⟨⟨true, rfl⟩, h.cluster, h.wf⟩
  obtain ⟨reader', hread', hinside⟩ :=
    reads_cpus signedChar hcoreInside rfl rfl hp hcore.1.1 hcore.2
  exact ⟨reader', hread.append hread', hinside⟩

theorem reads_cores (signedChar : Bool) (h : Inside p reader) (hp : 0 ≤ p) {cores : List CpuCore}
    (hcores : ∀ core ∈ cores, CoreFits core) :
    ∃ reader', Reads signedChar reader (cores.flatMap coreLines)
      (cores.flatMap fun core => core.cpuHead.map fun cpu => ⟨p, core.coreId, cpu.cpuId⟩)
      reader' ∧ Inside p reader' := by
  induction cores generalizing reader with
  | nil => exact ⟨reader, .nil, h⟩
  | cons core cores ih =>
    obtain ⟨reader', hread, hinside⟩ := reads_core signedChar h hp (hcores core (by simp))
    obtain ⟨reader'', hread', hinside'⟩ :=
      ih hinside fun core hcore => hcores core (by simp [hcore])
    exact ⟨reader'', hread.append hread', hinside'⟩

theorem reads_cluster (h : TopoWf reader.topo) {phy : CpuPhysical} (hphy : 0 ≤ phy.physicalId)
    (hlast : phy.physicalId ≤ lastCluster signedChar)
    (hcores : ∀ core ∈ phy.coreHead, CoreFits core) :
    ∃ reader', Reads signedChar reader (clusterLines phy)
      (phy.coreHead.flatMap fun core =>
        core.cpuHead.map fun cpu => ⟨phy.physicalId, core.coreId, cpu.cpuId⟩) reader' ∧
      TopoWf reader'.topo := by
  obtain ⟨reader', hline, hloop, hcluster, htopo⟩ := topoLine_cluster reader hphy hlast
  have hread : Reads signedChar reader [clusterText phy.physicalId] [] reader' :=
    .single hline (by simp [htopo])
  obtain ⟨reader'', hread', hinside⟩ :=
    reads_cores signedChar ⟨⟨false, hloop⟩, hcluster, htopo ▸ h⟩ hphy hcores
  exact ⟨reader'', hread.append hread', hinside.wf⟩

theorem reads_clusters (h : TopoWf reader.topo) {phys : List CpuPhysical}
    (hphys : ∀ phy ∈ phys, 0 ≤ phy.physicalId ∧ phy.physicalId ≤ lastCluster signedChar ∧
      ∀ core ∈ phy.coreHead, CoreFits core) :
    ∃ reader', Reads signedChar reader (phys.flatMap clusterLines)
      (phys.flatMap fun phy => phy.coreHead.flatMap fun core =>
        core.cpuHead.map fun cpu => ⟨phy.physicalId, core.coreId, cpu.cpuId⟩) reader' ∧
      TopoWf reader'.topo := by
  induction phys generalizing reader with
  | nil => exact ⟨reader, .nil, h⟩
  | cons phy phys ih =>
    obtain ⟨hphy, hlast, hcores⟩ := hphys phy (by simp)
    obtain ⟨reader', hread, hwf⟩ := reads_cluster h hphy hlast hcores
    obtain ⟨reader'', hread', hwf'⟩ := ih hwf fun phy hmem => hphys phy (by simp [hmem])
    exact ⟨reader'', hread.append hread', hwf'⟩

theorem mem_tree {topo : CpuTopology} {x : TopologyInfo} :
    (x ∈ topo.physicalHead.flatMap fun phy => phy.coreHead.flatMap fun core =>
      core.cpuHead.map fun cpu =>
        (⟨phy.physicalId, core.coreId, cpu.cpuId⟩ : TopologyInfo)) ↔ TopoHas topo x := by
  rw [← mem_triples, triples]
  simp [links, List.map_flatMap, Function.comp_def]

end Runs

/-! ## Cluster ids that are lost -/

/-- No cluster id the reader has seen is past the last letter. -/
structure Lettered (signedChar : Bool) (reader : TopoReader) : Prop where
  wf : TopoWf reader.topo
  clusters : ∀ x, TopoHas reader.topo x → x.physicalId ≤ lastCluster signedChar
  info : reader.loop ≠ .clusters → reader.info.physicalId ≤ lastCluster signedChar

section Lost

variable {signedChar : Bool} {reader reader' : TopoReader} {buf : List Char}

theorem lettered_clusterLine (h : Lettered signedChar reader)
    (hline : clusterLine signedChar reader buf = .fetch reader') : Lettered signedChar reader' := by
  simp only [clusterLine] at hline
  split at hline
  · cases hline
  · rw [← LineStep.fetch.inj hline]
    exact ⟨h.wf, h.clusters, fun _ => charValue_le _⟩

theorem lettered_coreLine {isHt : Bool} (h : Lettered signedChar reader)
    (hloop : reader.loop = .cores isHt)
    (hline : coreLine signedChar isHt reader buf = .ok (.fetch reader')) :
    Lettered signedChar reader' := by
  have hcluster : reader.info.physicalId ≤ lastCluster signedChar := h.info (by simp [hloop])
  simp only [coreLine] at hline
  split at hline
  · rw [← LineStep.fetch.inj (Except.ok.inj hline)]
    exact ⟨h.wf, h.clusters, fun _ => hcluster⟩
  · generalize sscanf (if isHt = true then htCpuFormat else cpuFormat) buf = scan at hline
    have hinfo : (cpuInfo isHt scan reader.info).physicalId ≤ lastCluster signedChar := hcluster
    split at hline
    · have hreader : Lettered signedChar { reader with info := cpuInfo isHt scan reader.info } :=
        ⟨h.wf, h.clusters, fun _ => hinfo⟩
      exact lettered_clusterLine hreader (Except.ok.inj hline)
    · generalize cpuInfo isHt scan reader.info = info at hline hinfo
      obtain ⟨topo, hadd, hline⟩ := Runs.bind_eq_ok hline
      rw [← LineStep.fetch.inj (Except.ok.inj hline)]
      obtain ⟨hwf, hhas⟩ := addTopoInfo_ok h.wf hadd
      refine ⟨hwf, fun x hx => ?_, fun _ => hinfo⟩
      rcases (hhas x).mp hx with rfl | hx
      · exact hinfo
      · exact h.clusters x hx

theorem lettered_topoLine (h : Lettered signedChar reader)
    (hline : topoLine signedChar reader buf = .ok (.fetch reader')) :
    Lettered signedChar reader' := by
  unfold topoLine at hline
  split at hline
  · rw [← LineStep.fetch.inj (Except.ok.inj hline)]
    exact h
  · split at hline
    · exact lettered_clusterLine h (Except.ok.inj hline)
    · next hloop => exact lettered_coreLine h hloop hline

/-- Whatever the text, the tree that is read is one, and no cluster is past the
last letter. -/
theorem lettered_readTopoLines {lines : List (List Char)} {read : TopoRead}
    (h : Lettered signedChar reader)
    (hread : readTopoLines signedChar reader lines = .ok (some read)) :
    TopoWf read.topo ∧ ∀ x, TopoHas read.topo x → x.physicalId ≤ lastCluster signedChar := by
  induction lines generalizing reader with
  | nil => cases hread
  | cons buf file ih =>
    rw [readTopoLines] at hread
    obtain ⟨step, hline, hread⟩ := Runs.bind_eq_ok hread
    cases step with
    | leave =>
      obtain rfl : _ = read := Option.some.inj (Except.ok.inj hread)
      exact ⟨h.wf, h.clusters⟩
    | fetch reader' => exact ih (lettered_topoLine h hline) hread

theorem readCpuTopoInfo_lettered {info : TopologyInfo} {pid : Char} {file : List (List Char)}
    {read : TopoRead} (hread : readCpuTopoInfo signedChar info pid buf file = .ok (some read)) :
    TopoWf read.topo ∧ ∀ x, TopoHas read.topo x → x.physicalId ≤ lastCluster signedChar := by
  have hstart : Lettered signedChar
      { loop := .clusters, info := info, pid := pid, topo := allocCpuTopoInfo } :=
    ⟨allocCpuTopoInfo_wf, by simp [TopoHas, allocCpuTopoInfo], by simp⟩
  exact lettered_readTopoLines hstart hread

end Lost

section Text

variable {n : Int} {signedChar : Bool}

def Plain (text : List Char) : Prop :=
  ∀ c ∈ text, c ≠ '\n' ∧ c ≠ '\x00'

instance (text : List Char) : Decidable (Plain text) :=
  List.decidableBAll (fun c => c ≠ '\n' ∧ c ≠ '\x00') text

theorem Plain.append {first second : List Char} (h : Plain first) (h' : Plain second) :
    Plain (first ++ second) := by
  intro c hc
  rcases List.mem_append.mp hc with hc | hc
  · exact h c hc
  · exact h' c hc

theorem wholeLine_of_plain {body : List Char} (h : Plain body) (hlen : body.length ≤ 200) :
    WholeLine bufsize (body ++ ['\n']) := by
  refine ⟨body, rfl, fun hmem => (h _ hmem).1 rfl, fun hmem => (h _ hmem).2 rfl, ?_⟩
  unfold bufsize
  omega

theorem plain_toDigits (n : Nat) : Plain (Nat.toDigits 10 n) := by
  intro c hc
  have hdigit := isDigit_of_mem_toDigits hc
  constructor
  · intro heq
    exact absurd hdigit (by rw [heq]; decide)
  · intro heq
    exact absurd hdigit (by rw [heq]; decide)

theorem length_toDigits {n : Nat} (h : n < 2 ^ 32) : (Nat.toDigits 10 n).length ≤ 10 := by
  rw [Nat.length_toDigits_le_iff (by decide) (by decide)]
  omega

theorem plain_printInt (hn : IsId n) : Plain (printInt n) := by
  rw [printInt_of_nonneg hn.1]
  exact plain_toDigits _

theorem length_printInt (hn : IsId n) : (printInt n).length ≤ 10 := by
  obtain ⟨hnonneg, hmax⟩ := hn
  rw [printInt_of_nonneg hnonneg]
  apply length_toDigits
  unfold intMax at hmax
  omega

theorem wholeLine_core (hn : IsId n) : WholeLine bufsize (coreText n) := by
  apply wholeLine_of_plain
  · exact Plain.append (by decide) (plain_printInt hn)
  · have hlen := length_printInt hn
    have htext : "\tcore".toList.length = 5 := rfl
    rw [List.length_append, htext]
    omega

theorem wholeLine_cpu (hn : IsId n) : WholeLine bufsize (cpuText n) := by
  apply wholeLine_of_plain
  · exact Plain.append (by decide) (plain_printInt hn)
  · have hlen := length_printInt hn
    have htext : "\t\tcpu".toList.length = 5 := rfl
    rw [List.length_append, htext]
    omega

theorem wholeLine_cpuid (hn : IsId n) : WholeLine bufsize (cpuidText n) := by
  have htext : cpuidText n = ("cpuid ".toList ++ printInt n ++ [':']) ++ ['\n'] :=
    (List.append_assoc ("cpuid ".toList ++ printInt n) [':'] ['\n']).symm
  rw [htext]
  apply wholeLine_of_plain
  · exact Plain.append (Plain.append (by decide) (plain_printInt hn)) (by decide)
  · have hlen := length_printInt hn
    have hword : "cpuid ".toList.length = 6 := rfl
    rw [List.length_append, List.length_append, hword, List.length_singleton]
    omega

theorem plain_singleton {c : Char} (h : 65 ≤ c.toNat) : Plain [c] := by
  intro x hx
  rw [List.mem_singleton.mp hx]
  constructor
  · rintro rfl
    exact absurd h (by decide)
  · rintro rfl
    exact absurd h (by decide)

theorem wholeLine_cluster (h : 0 ≤ n) (hlast : n ≤ lastCluster signedChar) :
    WholeLine bufsize (clusterText n) := by
  have hbyte : 65 ≤ (printChar (n + 65)).toNat := by
    rw [toNat_printChar h hlast]
    omega
  have hword : Plain "cluster".toList := by decide
  have hcolon : Plain [':'] := by decide
  unfold clusterText
  generalize printChar (n + 65) = c at hbyte
  have htext : "cluster".toList ++ [c, ':', '\n'] =
      ("cluster".toList ++ [c] ++ [':']) ++ ['\n'] := by simp
  rw [htext]
  apply wholeLine_of_plain
  · exact (hword.append (plain_singleton hbyte)).append hcolon
  · simp

theorem flatten_flatMap {α β : Type} (l : List α) (f : α → List (List β)) :
    (l.flatMap f).flatten = l.flatMap fun x => (f x).flatten := by
  induction l with
  | nil => rfl
  | cons x rest ih => simp [ih]

theorem flatten_coreLines (core : CpuCore) :
    (coreLines core).flatten =
      coreText core.coreId ++ core.cpuHead.flatMap fun cpu => cpuText cpu.cpuId := by
  rw [coreLines, List.flatten_cons, ← List.flatMap_def]

theorem flatten_clusterLines (phy : CpuPhysical) :
    (clusterLines phy).flatten =
      clusterText phy.physicalId ++ phy.coreHead.flatMap fun core =>
        coreText core.coreId ++ core.cpuHead.flatMap fun cpu => cpuText cpu.cpuId := by
  rw [clusterLines, List.flatten_cons, flatten_flatMap]
  simp only [flatten_coreLines]

theorem outfileTopoInfo_eq (topo : CpuTopology) :
    outfileTopoInfo topo = (topo.physicalHead.flatMap clusterLines).flatten := by
  rw [outfileTopoInfo, flatten_flatMap]
  simp only [flatten_clusterLines]

end Text

def IntIds (info : TopologyInfo) : Prop :=
  IsId info.physicalId ∧ IsId info.coreId ∧ IsId info.cpuId

/-- Reading what was written, with the line of the next section and more behind
it, gives the same tree and stops at that line. -/
def RoundTrips (signedChar : Bool) (info : TopologyInfo) (pid : Char) (topo : CpuTopology)
    (cpuId : Int) (more : List Char) : Prop :=
  ∃ buf file read,
    buffers bufsize (outfileTopoInfo topo ++ cpuidText cpuId ++ more) = buf :: file ∧
      readCpuTopoInfo signedChar info pid buf file = .ok (some read) ∧
      SameTree topo read.topo ∧ read.buf = cpuidText cpuId ∧ read.file = buffers bufsize more

section RoundTrip

variable {signedChar : Bool} {topo : CpuTopology} {info : TopologyInfo} {pid : Char} {cpuId : Int}

theorem cluster_has (h : TopoWf topo) {phy : CpuPhysical} (hphy : phy ∈ topo.physicalHead) :
    ∃ k x, TopoHas topo ⟨phy.physicalId, k, x⟩ := by
  obtain ⟨core, hcore⟩ := List.exists_mem_of_ne_nil _ (h.inhabited phy hphy)
  obtain ⟨cpu, hcpu⟩ := List.exists_mem_of_ne_nil _ ((h.phy phy hphy).inhabited core hcore)
  exact ⟨core.coreId, cpu.cpuId, phy, hphy, rfl, core, hcore, rfl, cpu, hcpu, rfl⟩

theorem core_fits (h : TopoWf topo) (hids : ∀ x, TopoHas topo x → IntIds x) {phy : CpuPhysical}
    (hphy : phy ∈ topo.physicalHead) {core : CpuCore} (hcore : core ∈ phy.coreHead) :
    CoreFits core := by
  have hall : ∀ cpu ∈ core.cpuHead, IntIds ⟨phy.physicalId, core.coreId, cpu.cpuId⟩ := by
    intro cpu hcpu
    exact hids _ ⟨phy, hphy, rfl, core, hcore, rfl, cpu, hcpu, rfl⟩
  obtain ⟨cpu, hcpu⟩ := List.exists_mem_of_ne_nil _ ((h.phy phy hphy).inhabited core hcore)
  exact ⟨(hall cpu hcpu).2.1, fun cpu hcpu => (hall cpu hcpu).2.2⟩

/-- What the writer of a tree with lettered clusters relies on. -/
def Printable (signedChar : Bool) (topo : CpuTopology) : Prop :=
  ∀ phy ∈ topo.physicalHead, 0 ≤ phy.physicalId ∧ phy.physicalId ≤ lastCluster signedChar ∧
    ∀ core ∈ phy.coreHead, CoreFits core

theorem printable_of_ids (h : TopoWf topo) (hids : ∀ x, TopoHas topo x → IntIds x)
    (hlast : ∀ x, TopoHas topo x → x.physicalId ≤ lastCluster signedChar) :
    Printable signedChar topo := by
  intro phy hphy
  obtain ⟨k, x, hhas⟩ := cluster_has h hphy
  exact ⟨(hids _ hhas).1.1, hlast _ hhas, fun core hcore => core_fits h hids hphy hcore⟩

theorem wholeLine_of_printable (h : Printable signedChar topo) :
    ∀ line ∈ topo.physicalHead.flatMap clusterLines, WholeLine bufsize line := by
  intro line hline
  obtain ⟨phy, hphy, hline⟩ := List.mem_flatMap.mp hline
  obtain ⟨hid, hlast, hcores⟩ := h phy hphy
  rcases List.mem_cons.mp hline with rfl | hline
  · exact wholeLine_cluster hid hlast
  obtain ⟨core, hcore, hline⟩ := List.mem_flatMap.mp hline
  obtain ⟨hcoreId, hcpus⟩ := hcores core hcore
  rcases List.mem_cons.mp hline with rfl | hline
  · exact wholeLine_core hcoreId
  obtain ⟨cpu, hcpu, rfl⟩ := List.mem_map.mp hline
  exact wholeLine_cpu (hcpus cpu hcpu)

theorem buffers_topology (h : Printable signedChar topo) (hcpu : IsId cpuId) (more : List Char) :
    buffers bufsize (outfileTopoInfo topo ++ cpuidText cpuId ++ more) =
      topo.physicalHead.flatMap clusterLines ++ cpuidText cpuId :: buffers bufsize more := by
  have hlines : ∀ line ∈ topo.physicalHead.flatMap clusterLines ++ [cpuidText cpuId],
      WholeLine bufsize line := by
    intro line hline
    rcases List.mem_append.mp hline with hline | hline
    · exact wholeLine_of_printable h line hline
    · rw [List.mem_singleton.mp hline]
      exact wholeLine_cpuid hcpu
  have htext : outfileTopoInfo topo ++ cpuidText cpuId =
      (topo.physicalHead.flatMap clusterLines ++ [cpuidText cpuId]).flatten := by
    rw [List.flatten_append, ← outfileTopoInfo_eq, List.flatten_singleton]
  rw [htext, buffers_flatten hlines, List.append_assoc, List.singleton_append]

theorem roundTrips_of_lettered (h : TopoWf topo) (hids : ∀ x, TopoHas topo x → IntIds x)
    (hlast : ∀ x, TopoHas topo x → x.physicalId ≤ lastCluster signedChar) (hcpu : IsId cpuId)
    (more : List Char) : RoundTrips signedChar info pid topo cpuId more := by
  have hprint := printable_of_ids h hids hlast
  have hbuffers := buffers_topology hprint hcpu more
  let start : TopoReader :=
    { loop := .clusters, info := info, pid := pid, topo := allocCpuTopoInfo }
  obtain ⟨reader, hread, hwf⟩ := reads_clusters (show TopoWf start.topo from allocCpuTopoInfo_wf)
    hprint
  have hhas : ∀ x, TopoHas topo x ↔ TopoHas reader.topo x := by
    intro x
    rw [hread.has, mem_tree]
    simp [start, TopoHas, allocCpuTopoInfo]
  have hstop : readTopoLines signedChar reader (cpuidText cpuId :: buffers bufsize more) =
      .ok (some ⟨reader.topo, cpuidText cpuId, buffers bufsize more⟩) := by
    rw [readTopoLines, topoLine_cpuid]
    rfl
  cases hlines : topo.physicalHead.flatMap clusterLines ++
      cpuidText cpuId :: buffers bufsize more with
  | nil => simp at hlines
  | cons buf file =>
    refine ⟨buf, file, ⟨reader.topo, cpuidText cpuId, buffers bufsize more⟩,
      hbuffers.trans hlines, ?_, sameTree_of_has h hwf hhas, rfl, rfl⟩
    rw [readCpuTopoInfo, ← hlines, hread.consumes, hstop]

theorem topoHas_forget {topo' : CpuTopology} (h : SameTree topo topo') {x : TopologyInfo}
    (hx : TopoHas topo x) : ∃ y, TopoHas topo' y ∧ y.physicalId = x.physicalId := by
  obtain ⟨phy, hphy, hid, core, hcore, hhas⟩ := hx
  have hmem : forgetEnum phy ∈ topo'.physicalHead.map forgetEnum := by
    rw [← h.tree]
    exact List.mem_map_of_mem hphy
  obtain ⟨phy', hphy', heq⟩ := List.mem_map.mp hmem
  have hcores : phy'.coreHead = phy.coreHead := congrArg (fun phy => phy.coreHead) heq
  have hphyId : phy'.physicalId = phy.physicalId := congrArg (fun phy => phy.physicalId) heq
  refine ⟨⟨phy.physicalId, x.coreId, x.cpuId⟩, ?_, hid⟩
  exact ⟨phy', hphy', hphyId, core, hcores ▸ hcore, hhas⟩

theorem lettered_of_roundTrips {more : List Char}
    (h : RoundTrips signedChar info pid topo cpuId more) {x : TopologyInfo}
    (hx : TopoHas topo x) : x.physicalId ≤ lastCluster signedChar := by
  obtain ⟨buf, file, read, -, hread, hsame, -⟩ := h
  obtain ⟨y, hy, hid⟩ := topoHas_forget hsame hx
  rw [← hid]
  exact (readCpuTopoInfo_lettered hread).2 y hy

/-- A topology comes back from its text exactly when every cluster id has a
letter. -/
theorem topology_round_trip (signedChar : Bool) (infos : List TopologyInfo)
    (hids : ∀ x ∈ infos, IntIds x) (info : TopologyInfo) (pid : Char) (cpuId : Int)
    (hcpu : IsId cpuId) (more : List Char) :
    ∃ topo, addTopoInfos infos = .ok topo ∧
      (RoundTrips signedChar info pid topo cpuId more ↔
        ∀ x ∈ infos, x.physicalId ≤ lastCluster signedChar) := by
  have hnonneg : ∀ x ∈ infos, NonNegative x := fun x hx =>
    ⟨(hids x hx).1.1, (hids x hx).2.1.1, (hids x hx).2.2.1⟩
  obtain ⟨topo, hbuilt, hwf, hhas⟩ := addTopoInfos_spec hnonneg
  refine ⟨topo, hbuilt, ?_, ?_⟩
  · intro hround x hx
    exact lettered_of_roundTrips hround ((hhas x).mpr hx)
  · intro hlast
    apply roundTrips_of_lettered hwf _ _ hcpu
    · exact fun x hx => hids x ((hhas x).mp hx)
    · exact fun x hx => hlast x ((hhas x).mp hx)

theorem topology_round_trip_pair :
    ∃ topo, addTopoInfos [⟨1, 0, 4⟩, ⟨0, 2, 1⟩] = .ok topo ∧
      (RoundTrips true ⟨0, 0, 0⟩ 'A' topo 0 [] ↔
        ∀ x ∈ [(⟨1, 0, 4⟩ : TopologyInfo), ⟨0, 2, 1⟩], x.physicalId ≤ lastCluster true) :=
  topology_round_trip true [⟨1, 0, 4⟩, ⟨0, 2, 1⟩] (by simp [IntIds, IsId, intMax]) ⟨0, 0, 0⟩ 'A' 0
    (by simp [IsId, intMax]) []

/-- Cluster 256 is written as cluster 0 is. -/
theorem cluster_id_lost :
    ∃ topo, addTopoInfos [⟨256, 0, 0⟩] = .ok topo ∧
      outfileTopoInfo topo = "clusterA:\n\tcore0\n\t\tcpu0\n".toList ∧
      ¬ RoundTrips true ⟨0, 0, 0⟩ 'A' topo 0 [] ∧ ¬ RoundTrips false ⟨0, 0, 0⟩ 'A' topo 0 [] := by
  obtain ⟨topo, hbuilt, hhas⟩ : ∃ topo, addTopoInfos [⟨256, 0, 0⟩] = .ok topo ∧
      TopoHas topo ⟨256, 0, 0⟩ := by
    obtain ⟨topo, hbuilt, -, hhas⟩ :=
      addTopoInfos_spec (show ∀ x ∈ [⟨256, 0, 0⟩], NonNegative x by simp [NonNegative])
    exact ⟨topo, hbuilt, (hhas _).mpr (by simp)⟩
  have htext : (addTopoInfos [⟨256, 0, 0⟩]).map outfileTopoInfo =
      .ok "clusterA:\n\tcore0\n\t\tcpu0\n".toList := by decide +kernel
  rw [hbuilt] at htext
  refine ⟨topo, hbuilt, Except.ok.inj htext, ?_, ?_⟩
  · intro hround
    exact absurd (lettered_of_roundTrips hround hhas) (by decide)
  · intro hround
    exact absurd (lettered_of_roundTrips hround hhas) (by decide)

end RoundTrip

end Idlestat.Theory.TopologyRoundTrip
