import Vlb.Net.Canary

/-!
# The canary pre-flight

Before it installs a new build, the update has it run `probe` and reads from what it prints whether
the canary can reach its targets. The last line says it in a fixed form. Builds that predate this
line print only what each provider came to.

* `probeOutput`: what the probe prints for the reports of a round, with that line or without it.
* `classifyPreflight`: what the update makes of it.
* `classify_with_line`: with the line, it makes of it what the reports say.
* `classify_agrees_iff`: without it, a round that failed is taken for one that passed.
-/

namespace Vlb.Update

open Text Canary Time

/-! ## What the probe prints -/

/-- `{:>width}`. -/
def padLeft (width : ℕ) (cs : List Char) : List Char :=
  List.replicate (width - cs.length) ' ' ++ cs

def markChars : CanaryVerdict → List Char
  | .ok _ => "ok  ".toList
  | .tampered _ => "TAMPERED".toList
  | .unreachable _ => "unreach".toList

section

variable (text : Detail → String) (millis : Duration → ℕ)

/-- The report on a provider. A provider's name is checked with the configuration, the labels of the
targets and the texts of the verdicts are single lines, and a quorum takes at least one target
(`ofRound`). -/
structure ProviderReport where
  name : String
  report : CanaryReport
  name_ne : name.toList ≠ []
  name_clean : ∀ c ∈ name.toList, isWhitespace c = false
  required_pos : 0 < report.required
  label_line : ∀ t ∈ report.perTarget, '\n' ∉ t.1.toList
  detail_line : ∀ t ∈ report.perTarget, ∀ d, t.2.detail = some d → '\n' ∉ (text d).toList
  tampered_line : ∀ t, report.tampered = some t → '\n' ∉ t.toList

/-- `millis` rounds, as `f64` has it. -/
def latencyChars : CanaryVerdict → List Char
  | .ok latency => padLeft 7 (Nat.toDigits 10 (millis latency)) ++ " ms".toList
  | _ => "      -- ".toList

def detailChars (verdict : CanaryVerdict) : List Char :=
  match verdict.detail with
  | some d => "  — ".toList ++ (text d).toList
  | none => []

/-- The line on one target. -/
def targetLine (t : String × CanaryVerdict) : List Char :=
  "    ".toList ++ padLeft 8 (markChars t.2) ++
    ("  ".toList ++ latencyChars millis t.2 ++ "  ".toList ++ t.1.toList ++ detailChars text t.2)

def verdictLine (report : CanaryReport) : List Char :=
  "    canary verdict: ".toList ++ (report.summary text).toList

variable {text} in
/-- The last line. Without targets there is no canary, and no report. -/
def quorumLine (reports : List (ProviderReport text)) : List Char :=
  let via := reports.filter fun r => r.report.isOk
  if reports.isEmpty then "canary quorum: not applicable (canary disabled)".toList
  else if via.isEmpty then "canary quorum: NOT MET via any provider".toList
  else "canary quorum: MET via ".toList ++ ", ".toList.intercalate (via.map fun r => r.name.toList)

variable {text} in
/-- What the probe prints of a provider. -/
def reportLines (r : ProviderReport text) : List (List Char) :=
  r.report.perTarget.map (targetLine text millis) ++ [verdictLine text r.report]

variable {text} in
/-- What it prints of all. -/
def probeOutput (withLine : Bool) (reports : List (ProviderReport text)) : List Char :=
  printed (reports.flatMap (reportLines millis) ++
    if withLine then [[], quorumLine reports] else [])

end

/-! ## What the update reads -/

/-- What the update makes of it. -/
inductive Preflight
  | met (via : List Char)
  | notMet (detail : List Char)
  | notApplicable
  /-- Not evidence either way. -/
  | unknown (why : String)
  deriving DecidableEq

/-- The lines that go into the message. -/
def preflightDetail (output : List Char) : List Char :=
  ['\n'].intercalate (((lines output).filter fun l =>
    contains "TAMPERED".toList l || contains "unreach".toList l ||
      contains "verdict".toList l).take 12)

/-- One turn of the loop. -/
def quorumVerdict (output line : List Char) : Option Preflight :=
  match stripPrefix "canary quorum: MET via ".toList (trim line) with
  | some via => some (.met (trim via))
  | none =>
    if "canary quorum: NOT MET".toList.isPrefixOf (trim line) then
      some (.notMet (preflightDetail output))
    else if "canary quorum: not applicable".toList.isPrefixOf (trim line) then
      some .notApplicable
    else none

def verdictMark : List Char := "canary verdict:".toList

/-- What stands in the line of a provider without a single verified target, as older builds had
it. -/
def zeroMark : List Char := "canary verdict: 0/".toList

/-- The quorum line counts, and else the verdicts. -/
def classifyPreflight (output : List Char) (exitedOk : Bool) : Preflight :=
  match (lines output).findSome? (quorumVerdict output) with
  | some p => p
  | none =>
    if !exitedOk then .unknown "probe exited non-zero"
    else if (lines output).any fun l => contains verdictMark l && !contains zeroMark l then
      .met "(per-provider verdict)".toList
    else if contains verdictMark output then .notMet []
    else .unknown "no canary verdict in the probe output"

/-! ## The lines -/

variable {text : Detail → String} {millis : Duration → ℕ}

theorem not_mem_summary (r : ProviderReport text) : '\n' ∉ (r.report.summary text).toList := by
  have hnum (n : ℕ) : '\n' ∉ (toString n).toList := by
    rw [Nat.toString_eq_ofList_toDigits, String.toList_ofList]
    exact not_mem_toDigits (by decide)
  have hfailures : '\n' ∉ ("; ".intercalate ((r.report.perTarget.filter fun t => !t.2.isOk).map
      fun t => t.1 ++ ": " ++ (t.2.detail.map text).getD "failed")).toList := by
    rw [String.toList_intercalate]
    intro h
    obtain hsep | ⟨l, hl, hmem⟩ := mem_intercalate h
    · exact absurd hsep (by decide)
    · rw [List.map_map] at hl
      obtain ⟨t, ht, rfl⟩ := List.mem_map.mp hl
      have ht := List.mem_of_mem_filter ht
      simp only [Function.comp_apply, String.toList_append, List.mem_append] at hmem
      obtain (hlabel | hsep) | hdetail := hmem
      · exact r.label_line t ht hlabel
      · exact absurd hsep (by decide)
      · cases hd : t.2.detail with
        | none =>
          have hfailed : '\n' ∉ "failed".toList := by decide
          rw [hd] at hdetail
          exact hfailed hdetail
        | some d =>
          rw [hd] at hdetail
          exact r.detail_line t ht d hd hdetail
  unfold CanaryReport.summary CanaryReport.conclusiveTamper
  cases htampered : r.report.tampered with
  | some t =>
    have ht := r.tampered_line t htampered
    by_cases hless : r.report.passed < r.report.required
    · simp only [hless, if_true, String.toList_append, List.mem_append, ht, or_false]
      decide
    · simp only [hless, if_false, String.toList_append, List.mem_append, ht, hnum, or_false]
      decide
  | none =>
    dsimp only
    split_ifs
    · simp only [String.toList_append, List.mem_append, hnum, or_false]
      decide
    · simp only [String.toList_append, List.mem_append, hnum, hfailures, or_false]
      decide

theorem summary_head (r : ProviderReport text) :
    ∃ c cs, (r.report.summary text).toList = c :: cs ∧ c ≠ '0' := by
  unfold CanaryReport.summary CanaryReport.conclusiveTamper
  cases r.report.tampered with
  | some t =>
    by_cases hless : r.report.passed < r.report.required
    · simp only [hless, if_true, String.toList_append]
      exact ⟨'C', _, rfl, by decide⟩
    · simp only [hless, if_false, String.toList_append]
      exact ⟨'c', _, rfl, by decide⟩
  | none =>
    dsimp only
    split_ifs with hok
    · have hpassed : 0 < r.report.passed := by
        have hrequired := r.required_pos
        simp only [CanaryReport.isOk, Bool.and_eq_true, decide_eq_true_eq] at hok
        omega
      obtain ⟨c, cs, hcs, hc⟩ := toDigits_head hpassed
      simp only [String.toList_append, Nat.toString_eq_ofList_toDigits, String.toList_ofList, hcs,
        List.cons_append]
      exact ⟨c, _, rfl, hc⟩
    · simp only [String.toList_append]
      exact ⟨'o', _, rfl, by decide⟩

theorem not_mem_verdictLine (r : ProviderReport text) : '\n' ∉ verdictLine text r.report := by
  have hhead : '\n' ∉ "    canary verdict: ".toList := by decide
  unfold verdictLine
  exact List.not_mem_append hhead (not_mem_summary r)

theorem not_mem_padLeft {width : ℕ} {cs : List Char} (h : '\n' ∉ cs) :
    '\n' ∉ padLeft width cs := by
  rw [padLeft, List.mem_append, List.mem_replicate, not_or]
  exact ⟨fun hblank => absurd hblank.2 (by decide), h⟩

theorem not_mem_targetLine {r : ProviderReport text} {t : String × CanaryVerdict}
    (ht : t ∈ r.report.perTarget) : '\n' ∉ targetLine text millis t := by
  have hmarks : '\n' ∉ "ok  ".toList ∧ '\n' ∉ "TAMPERED".toList ∧ '\n' ∉ "unreach".toList := by
    decide
  have hmark : '\n' ∉ padLeft 8 (markChars t.2) := by
    apply not_mem_padLeft
    cases t.2 with
    | ok latency => exact hmarks.1
    | tampered d => exact hmarks.2.1
    | unreachable d => exact hmarks.2.2
  have hlatency : '\n' ∉ latencyChars millis t.2 := by
    cases t.2 with
    | ok latency =>
      rw [latencyChars, List.mem_append, not_or]
      exact ⟨not_mem_padLeft (not_mem_toDigits (by decide)), by decide⟩
    | tampered d => exact of_decide_eq_true rfl
    | unreachable d => exact of_decide_eq_true rfl
  have hdetail : '\n' ∉ detailChars text t.2 := by
    unfold detailChars
    cases hd : t.2.detail with
    | none => simp
    | some d =>
      rw [List.mem_append, not_or]
      exact ⟨by decide, r.detail_line t ht d hd⟩
  have hindent : '\n' ∉ "    ".toList := by decide
  have hgap : '\n' ∉ "  ".toList := by decide
  have hfront := List.not_mem_append hindent hmark
  have hmiddle := List.not_mem_append (List.not_mem_append hgap hlatency) hgap
  unfold targetLine
  exact List.not_mem_append hfront
    (List.not_mem_append (List.not_mem_append hmiddle (r.label_line t ht)) hdetail)

theorem not_mem_quorumLine (reports : List (ProviderReport text)) :
    '\n' ∉ quorumLine reports := by
  unfold quorumLine
  dsimp only
  split_ifs
  · decide
  · decide
  · rw [List.mem_append, not_or]
    refine ⟨by decide, fun h => ?_⟩
    obtain hsep | ⟨l, hl, hmem⟩ := mem_intercalate h
    · exact absurd hsep (by decide)
    · obtain ⟨r, -, rfl⟩ := List.mem_map.mp hl
      exact absurd (r.name_clean _ hmem) (by decide)

/-! ## The reports of a round -/

theorem not_mem_display {u : Url} (h : u.WellFormed) : '\n' ∉ u.display.toList := by
  have hhost : '\n' ∉ u.host.toList := fun hmem => absurd (h.host _ hmem) (by decide)
  have hpath : '\n' ∉ u.path.toList := fun hmem => absurd (h.path_clean _ hmem) (by decide)
  have hport : '\n' ∉ (toString u.port.toNat).toList := by
    rw [Nat.toString_eq_ofList_toDigits, String.toList_ofList]
    exact not_mem_toDigits (by decide)
  have hheader : '\n' ∉ u.hostHeader.toList := by
    unfold Url.hostHeader
    split_ifs
    · exact hhost
    · simp only [String.toList_append, List.mem_append, hhost, hport, or_false]
      decide
  have hscheme : '\n' ∉ u.scheme.asStr.toList := by
    cases u.scheme <;> simp only [Scheme.asStr] <;> decide
  simp only [Url.display, String.toList_append, List.mem_append, hscheme, hheader, hpath, or_false]
  decide

/-- The texts of a round's verdicts are single lines if the texts that they are made of are. -/
def ProviderReport.ofRound (htext : ∀ d, '\n' ∉ (text d).toList) (p : Provider)
    (hp : p.validate = .ok ()) (sha256 : List UInt8 → Digest) (quorum : Quorum) (probe : Probe)
    (targets : List (CanaryTarget × Network)) (hne : targets ≠ [])
    (hurls : ∀ t ∈ targets, t.1.url.WellFormed) : ProviderReport text where
  name := p.name
  report := checkCanaryVia sha256 text quorum probe targets
  name_ne := by
    simp only [Provider.validate, bind_eq_ok, bailIf_eq_ok] at hp
    intro hempty
    rw [hempty] at hp
    exact hp.1 rfl
  name_clean := by
    simp only [Provider.validate, bind_eq_ok, bailIf_eq_ok] at hp
    intro c hc
    rw [Bool.eq_false_iff]
    exact fun hblank => hp.2.1 (List.any_eq_true.mpr ⟨c, hc, hblank⟩)
  required_pos := by
    simp only [checkCanaryVia, List.isEmpty_iff, hne, if_false]
    exact Nat.lt_of_lt_of_le Nat.one_pos (Nat.le_max_right _ _)
  label_line := by
    simp only [checkCanaryVia, List.isEmpty_iff, hne, if_false, List.mem_map]
    rintro _ ⟨t, ht, rfl⟩
    exact not_mem_display (hurls t ht)
  detail_line := fun _ _ d _ => htext d
  tampered_line := by
    simp only [checkCanaryVia, List.isEmpty_iff, hne, if_false, Option.map_eq_some_iff]
    rintro _ ⟨t, hfind, rfl⟩
    have hlabel : '\n' ∉ t.1.toList := by
      obtain ⟨target, htarget, rfl⟩ := List.mem_map.mp (List.mem_of_find?_eq_some hfind)
      exact not_mem_display (hurls target htarget)
    have hdetail : '\n' ∉ ((t.2.detail.map text).getD "content mismatch").toList := by
      have hmismatch : '\n' ∉ "content mismatch".toList := by decide
      cases t.2.detail with
      | none => exact hmismatch
      | some d => exact htext d
    simp only [String.toList_append, List.mem_append, hlabel, hdetail, or_false]
    decide

/-! ## The quorum line -/

def quorumMark : List Char := "canary quorum: ".toList

/-- A line that differs from what all quorum lines start with is passed over. -/
theorem quorumVerdict_eq_none (output : List Char) {line : List Char} {i : ℕ} {a b : Char}
    (hi : quorumMark[i]? = some a) (h : (trimStart line)[i]? = some b) (hab : a ≠ b) :
    quorumVerdict output line = none := by
  have hnot : ∀ pat : List Char, quorumMark <+: pat → pat.isPrefixOf (trim line) = false := by
    intro pat hpat
    rw [Bool.eq_false_iff]
    intro hstarts
    obtain ⟨rest, hrest⟩ := hpat.trans (isPrefixOf_trim hstarts)
    rw [← hrest, List.getElem?_append_left (List.getElem?_eq_some_iff.mp hi).1, hi] at h
    exact hab (Option.some.inj h)
  simp only [quorumVerdict, stripPrefix, hnot "canary quorum: MET via ".toList (by decide),
    hnot "canary quorum: NOT MET".toList (by decide),
    hnot "canary quorum: not applicable".toList (by decide), Bool.false_eq_true, if_false]

theorem quorumVerdict_verdictLine (output : List Char) (r : ProviderReport text) :
    quorumVerdict output (stripReturn (verdictLine text r.report)) = none := by
  obtain ⟨c, cs, hsummary, -⟩ := summary_head r
  have hne : (r.report.summary text).toList ≠ [] := by
    rw [hsummary]
    exact List.cons_ne_nil c cs
  have hv (cs : List Char) :
      (trimStart ("    canary verdict: ".toList ++ cs))[7]? = some 'v' := rfl
  have hq : quorumMark[7]? = some 'q' := by decide
  have hline := quorumVerdict_eq_none output hq (hv (stripReturn (r.report.summary text).toList))
    (by decide)
  rwa [← stripReturn_append hne] at hline

theorem quorumVerdict_targetLine (output : List Char) (t : String × CanaryVerdict) :
    quorumVerdict output (stripReturn (targetLine text millis t)) = none := by
  have hc : quorumMark[0]? = some 'c' := by decide
  have hmark (v : CanaryVerdict) (cs : List Char) : ∃ m, m ≠ 'c' ∧
      (trimStart ("    ".toList ++ padLeft 8 (markChars v) ++ cs))[0]? = some m := by
    cases v with
    | ok latency => exact ⟨'o', by decide, rfl⟩
    | tampered detail => exact ⟨'T', by decide, rfl⟩
    | unreachable detail => exact ⟨'u', by decide, rfl⟩
  unfold targetLine
  rw [stripReturn_append (by simp)]
  obtain ⟨m, hm, hchar⟩ := hmark t.2 (stripReturn _)
  exact quorumVerdict_eq_none output hc hchar hm.symm

theorem quorumVerdict_reportLines (output : List Char) (reports : List (ProviderReport text)) :
    ((reports.flatMap (reportLines millis)).map stripReturn).findSome? (quorumVerdict output) =
      none := by
  simp only [List.findSome?_eq_none_iff, List.mem_map, List.mem_flatMap, reportLines,
    List.mem_append, List.mem_singleton]
  rintro _ ⟨_, ⟨r, -, ⟨t, -, rfl⟩ | rfl⟩, rfl⟩
  · exact quorumVerdict_targetLine output t
  · exact quorumVerdict_verdictLine output r

/-- Did it say so? -/
def Preflight.isMet : Preflight → Bool
  | .met _ => true
  | _ => false

def Preflight.isNotMet : Preflight → Bool
  | .notMet _ => true
  | _ => false

/-- What the update makes of the round is what the reports say. -/
def Agrees (p : Preflight) (reports : List (ProviderReport text)) : Prop :=
  (p.isMet = true ↔ ∃ r ∈ reports, r.report.isOk = true) ∧
    (p.isNotMet = true ↔ reports ≠ [] ∧ ∀ r ∈ reports, r.report.isOk = false)

/-- The line with the names is read in full: it neither starts nor ends with a blank. -/
theorem quorumVerdict_met (output : List Char) {names : List (List Char)} (hne : names ≠ [])
    (hnames : ∀ n ∈ names, ∃ front c, n = front ++ [c] ∧ isWhitespace c = false) :
    ∃ via, quorumVerdict output (stripReturn
      ("canary quorum: MET via ".toList ++ ", ".toList.intercalate names)) = some (.met via) := by
  obtain ⟨front, c, hends, hc⟩ := intercalate_ends ", ".toList hne hnames
  have hreturn : stripReturn (front ++ [c]) = front ++ [c] := by
    rw [stripReturn_append (List.cons_ne_nil c []), stripReturn, if_neg]
    rw [List.getLast?_singleton, Option.some_inj]
    rintro rfl
    exact absurd hc (by decide)
  have htrim (cs : List Char) : trim ("canary quorum: MET via ".toList ++ (cs ++ [c])) =
      "canary quorum: MET via ".toList ++ (cs ++ [c]) :=
    trim_eq_self 'c' ("anary quorum: MET via ".toList ++ cs) (by decide) hc
  have hstarts : ("canary quorum: MET via ".toList).isPrefixOf
      ("canary quorum: MET via ".toList ++ (front ++ [c])) = true :=
    List.isPrefixOf_iff_prefix.mpr (List.prefix_append _ _)
  rw [hends, stripReturn_append (by simp), hreturn]
  simp only [quorumVerdict, htrim, stripPrefix, hstarts, if_true]
  exact ⟨_, rfl⟩

theorem not_mem_reportLines {reports : List (ProviderReport text)} :
    ∀ l ∈ reports.flatMap (reportLines millis), '\n' ∉ l := by
  simp only [List.mem_flatMap, reportLines, List.mem_append, List.mem_map, List.mem_singleton]
  rintro _ ⟨r, -, ⟨t, ht, rfl⟩ | rfl⟩
  · exact not_mem_targetLine ht
  · exact not_mem_verdictLine r

theorem lines_with (reports : List (ProviderReport text)) :
    lines (probeOutput millis true reports) =
      (reports.flatMap (reportLines millis)).map stripReturn ++
        [[], stripReturn (quorumLine reports)] := by
  have hline : ∀ l ∈ reports.flatMap (reportLines millis) ++ [[], quorumLine reports], '\n' ∉ l := by
    intro l hl
    obtain hl | hl := List.mem_append.mp hl
    · exact not_mem_reportLines l hl
    · simp only [List.mem_cons, List.not_mem_nil, or_false] at hl
      obtain rfl | rfl := hl
      · exact List.not_mem_nil
      · exact not_mem_quorumLine reports
  rw [probeOutput, if_pos rfl, lines_printed hline, List.map_append]
  rfl

theorem lines_without (reports : List (ProviderReport text)) :
    lines (probeOutput millis false reports) =
      (reports.flatMap (reportLines millis)).map stripReturn := by
  rw [probeOutput, if_neg Bool.false_ne_true, List.append_nil, lines_printed not_mem_reportLines]

/-! ## What the update makes of it -/

theorem classify_of_line {reports : List (ProviderReport text)} {p : Preflight}
    (h : quorumVerdict (probeOutput millis true reports) (stripReturn (quorumLine reports)) =
      some p) : classifyPreflight (probeOutput millis true reports) true = p := by
  have hblank : quorumVerdict (probeOutput millis true reports) [] = none := rfl
  rw [classifyPreflight, lines_with, List.findSome?_append, quorumVerdict_reportLines,
    Option.none_or, List.findSome?_cons, hblank, List.findSome?_cons, h]

/-- **With the quorum line** the update makes of a round what the reports say. -/
theorem classify_with_line (reports : List (ProviderReport text)) :
    Agrees (classifyPreflight (probeOutput millis true reports) true) reports := by
  by_cases hempty : reports = []
  · subst hempty
    rw [classify_of_line (p := .notApplicable) rfl]
    simp [Agrees, Preflight.isMet, Preflight.isNotMet]
  · by_cases hok : ∃ r ∈ reports, r.report.isOk = true
    · have hvia : (reports.filter fun r => r.report.isOk).map (fun r => r.name.toList) ≠ [] := by
        obtain ⟨r, hr, hisOk⟩ := hok
        simpa using ⟨r, hr, hisOk⟩
      have hnames : ∀ n ∈ (reports.filter fun r => r.report.isOk).map (fun r => r.name.toList),
          ∃ front c, n = front ++ [c] ∧ isWhitespace c = false := by
        intro n hn
        obtain ⟨r, -, rfl⟩ := List.mem_map.mp hn
        refine ⟨_, _, (List.dropLast_concat_getLast r.name_ne).symm, ?_⟩
        exact r.name_clean _ (List.getLast_mem r.name_ne)
      obtain ⟨via, hmet⟩ := quorumVerdict_met (probeOutput millis true reports) hvia hnames
      have hline : quorumLine reports = "canary quorum: MET via ".toList ++ ", ".toList.intercalate
          ((reports.filter fun r => r.report.isOk).map fun r => r.name.toList) := by
        have hfilter : (reports.filter fun r => r.report.isOk) ≠ [] := fun h => hvia (by rw [h]; rfl)
        rw [quorumLine, if_neg (by simp [hempty]), if_neg (by simpa using hfilter)]
      rw [← hline] at hmet
      rw [classify_of_line hmet]
      have hnone : ¬ ∀ r ∈ reports, r.report.isOk = false := by
        obtain ⟨r, hr, hisOk⟩ := hok
        intro hall
        rw [hall r hr] at hisOk
        injection hisOk
      simp [Agrees, Preflight.isMet, Preflight.isNotMet, hok, hnone]
    · have hall : ∀ r ∈ reports, r.report.isOk = false := by
        intro r hr
        rw [Bool.eq_false_iff]
        exact fun hisOk => hok ⟨r, hr, hisOk⟩
      have hline : quorumLine reports = "canary quorum: NOT MET via any provider".toList := by
        rw [quorumLine, if_neg (by simp [hempty]), if_pos (by simpa using hall)]
      have hnotMet : quorumVerdict (probeOutput millis true reports)
          (stripReturn (quorumLine reports)) =
            some (.notMet (preflightDetail (probeOutput millis true reports))) := by
        rw [hline]
        rfl
      rw [classify_of_line hnotMet]
      simpa [Agrees, Preflight.isMet, Preflight.isNotMet, hok, hempty] using hall

/-! ## Without the line -/

/-- What an older build's output is taken for a quorum by. -/
def readsAsMet (line : List Char) : Bool := contains verdictMark line && !contains zeroMark line

theorem readsAsMet_stripReturn (line : List Char) :
    readsAsMet (stripReturn line) = readsAsMet line := by
  rw [readsAsMet, contains_stripReturn (by decide) (by decide),
    contains_stripReturn (by decide) (by decide), readsAsMet]

theorem contains_verdictLine (report : CanaryReport) :
    contains verdictMark (verdictLine text report) = true :=
  contains_iff.mpr ⟨"    ".toList, ' ' :: (report.summary text).toList, rfl⟩

/-- The mark of a zero is not at the front of the line, so if it is anywhere it is quoted. -/
theorem contains_zeroMark (r : ProviderReport text) :
    contains zeroMark (verdictLine text r.report) =
      contains zeroMark (r.report.summary text).toList := by
  obtain ⟨c, cs, hsummary, hc⟩ := summary_head r
  have hhead : "    canary verdict: ".toList = [' ', ' ', ' ', ' ', 'c', 'a', 'n', 'a', 'r', 'y', ' ',
      'v', 'e', 'r', 'd', 'i', 'c', 't', ':', ' '] := by decide
  have hzero : zeroMark = ['c', 'a', 'n', 'a', 'r', 'y', ' ', 'v', 'e', 'r', 'd', 'i', 'c', 't', ':',
      ' ', '0', '/'] := by decide
  have hline : contains zeroMark ("    canary verdict: ".toList ++ c :: cs) =
      contains zeroMark (c :: cs) := by
    rw [Bool.eq_iff_iff, contains_iff, contains_iff, hhead, hzero]
    simp [List.infix_cons_iff, List.cons_prefix_cons, hc.symm]
  rwa [← hsummary] at hline

/-- The line of a provider that met the quorum has its numbers and no quotation. -/
theorem readsAsMet_of_isOk {r : ProviderReport text} (h : r.report.isOk = true) :
    readsAsMet (verdictLine text r.report) = true := by
  have hnot : contains zeroMark (r.report.summary text).toList = false := by
    rw [Bool.eq_false_iff]
    intro hzero
    have hcolon : ':' ∈ (r.report.summary text).toList :=
      (contains_iff.mp hzero).subset (by decide)
    have hnum (n : ℕ) : ':' ∉ (toString n).toList := by
      rw [Nat.toString_eq_ofList_toDigits, String.toList_ofList]
      exact not_mem_toDigits (by decide)
    have htampered : r.report.tampered = none := by
      rw [CanaryReport.isOk, Bool.and_eq_true] at h
      exact Option.isNone_iff_eq_none.mp h.1
    simp only [CanaryReport.summary, CanaryReport.conclusiveTamper, htampered, h, if_true,
      String.toList_append, List.mem_append, hnum, false_or, or_false] at hcolon
    revert hcolon
    decide
  rw [readsAsMet, contains_verdictLine, contains_zeroMark, hnot]
  rfl

/-- The older builds' mark of a zero is quoted by a provider's verdict and wherever a line on its
targets quotes a verdict. -/
def QuotesZero (millis : Duration → ℕ) (r : ProviderReport text) : Prop :=
  contains zeroMark (r.report.summary text).toList = true ∧
    ∀ t ∈ r.report.perTarget, contains verdictMark (targetLine text millis t) = true →
      contains zeroMark (targetLine text millis t) = true

theorem any_readsAsMet_iff (reports : List (ProviderReport text)) :
    (lines (probeOutput millis false reports)).any readsAsMet = true ↔
      ¬ ∀ r ∈ reports, QuotesZero millis r := by
  rw [lines_without, List.any_map, List.any_eq_true]
  simp only [Function.comp_apply, readsAsMet_stripReturn, List.mem_flatMap, reportLines,
    List.mem_append, List.mem_map, List.mem_singleton, not_forall]
  constructor
  · rintro ⟨_, ⟨r, hr, ⟨t, ht, rfl⟩ | rfl⟩, hmet⟩
    · refine ⟨r, hr, fun hquotes => ?_⟩
      simp only [readsAsMet, Bool.and_eq_true, Bool.not_eq_true'] at hmet
      rw [hquotes.2 t ht hmet.1] at hmet
      exact absurd hmet.2 (by decide)
    · refine ⟨r, hr, fun hquotes => ?_⟩
      rw [readsAsMet, contains_zeroMark, hquotes.1, Bool.not_true, Bool.and_false] at hmet
      injection hmet
  · rintro ⟨r, hr, hquotes⟩
    by_cases hsummary : contains zeroMark (r.report.summary text).toList = true
    · have htarget : ∃ t ∈ r.report.perTarget, readsAsMet (targetLine text millis t) = true := by
        by_contra hnone
        refine hquotes ⟨hsummary, fun t ht hmark => ?_⟩
        by_contra hzero
        refine hnone ⟨t, ht, ?_⟩
        rw [readsAsMet, hmark, Bool.eq_false_iff.mpr hzero]
        rfl
      obtain ⟨t, ht, hmet⟩ := htarget
      exact ⟨_, ⟨r, hr, .inl ⟨t, ht, rfl⟩⟩, hmet⟩
    · refine ⟨_, ⟨r, hr, .inr rfl⟩, ?_⟩
      rw [readsAsMet, contains_verdictLine, contains_zeroMark, Bool.eq_false_iff.mpr hsummary]
      rfl

theorem classify_fallback {output : List Char}
    (hnone : (lines output).findSome? (quorumVerdict output) = none) :
    ((classifyPreflight output true).isMet = true ↔ (lines output).any readsAsMet = true) ∧
      ((classifyPreflight output true).isNotMet = true ↔
        (lines output).any readsAsMet = false ∧ contains verdictMark output = true) := by
  have heq : classifyPreflight output true =
      if (lines output).any readsAsMet then .met "(per-provider verdict)".toList
      else if contains verdictMark output then .notMet []
      else .unknown "no canary verdict in the probe output" := by
    rw [classifyPreflight, hnone]
    rfl
  rw [heq]
  cases (lines output).any readsAsMet <;> cases contains verdictMark output <;>
    simp [Preflight.isMet, Preflight.isNotMet]

theorem contains_probeOutput (reports : List (ProviderReport text)) :
    contains verdictMark (probeOutput millis false reports) = true ↔ reports ≠ [] := by
  constructor
  · rintro h rfl
    have hempty : contains verdictMark [] = false := by decide
    exact absurd (hempty.symm.trans h) Bool.false_ne_true
  · intro hne
    obtain ⟨r, hr⟩ := List.exists_mem_of_ne_nil reports hne
    have hline : verdictLine text r.report ∈ reports.flatMap (reportLines millis) :=
      List.mem_flatMap.mpr ⟨r, hr, by simp [reportLines]⟩
    rw [probeOutput, if_neg Bool.false_ne_true, List.append_nil, contains_iff]
    exact (contains_iff.mp (contains_verdictLine r.report)).trans (infix_printed hline)

theorem classify_without_line (millis : Duration → ℕ) (reports : List (ProviderReport text)) :
    ((classifyPreflight (probeOutput millis false reports) true).isMet = true ↔
      ¬ ∀ r ∈ reports, QuotesZero millis r) ∧
    ((classifyPreflight (probeOutput millis false reports) true).isNotMet = true ↔
      reports ≠ [] ∧ ∀ r ∈ reports, QuotesZero millis r) := by
  have hnone : (lines (probeOutput millis false reports)).findSome?
      (quorumVerdict (probeOutput millis false reports)) = none := by
    rw [lines_without, quorumVerdict_reportLines]
  obtain ⟨hmet, hnotMet⟩ := classify_fallback hnone
  rw [hmet, hnotMet, contains_probeOutput, ← Bool.not_eq_true, any_readsAsMet_iff, not_not]
  exact ⟨Iff.rfl, and_comm⟩

/-- **What the update makes of a round.** With the quorum line it is what the reports say. Without it,
this takes a provider that met the quorum, or no report at all: a line of any other report is taken
for a quorum that was met, unless it happens to quote the older builds' zero. -/
theorem classify_agrees_iff (text : Detail → String) (millis : Duration → ℕ)
    (reports : List (ProviderReport text)) :
    Agrees (classifyPreflight (probeOutput millis true reports) true) reports ∧
      (Agrees (classifyPreflight (probeOutput millis false reports) true) reports ↔
        reports = [] ∨ (∃ r ∈ reports, r.report.isOk = true) ∨
          ∀ r ∈ reports, QuotesZero millis r) := by
  refine ⟨classify_with_line reports, ?_⟩
  obtain ⟨hmet, hnotMet⟩ := classify_without_line millis reports
  rw [Agrees, hmet, hnotMet]
  by_cases hok : ∃ r ∈ reports, r.report.isOk = true
  · obtain ⟨r, hr, hisOk⟩ := hok
    have hquotes : ¬ ∀ r ∈ reports, QuotesZero millis r := by
      intro hall
      have hreads := readsAsMet_of_isOk hisOk
      rw [readsAsMet, contains_zeroMark, (hall r hr).1, Bool.not_true, Bool.and_false] at hreads
      injection hreads
    have hnone : ¬ ∀ r ∈ reports, r.report.isOk = false := by
      intro hall
      rw [hall r hr] at hisOk
      injection hisOk
    have hsome : ∃ r ∈ reports, r.report.isOk = true := ⟨r, hr, hisOk⟩
    simp only [hquotes, hnone, hsome, not_false_iff, and_false, true_or, or_true, and_self]
  · have hall : ∀ r ∈ reports, r.report.isOk = false := by
      intro r hr
      rw [Bool.eq_false_iff]
      exact fun hisOk => hok ⟨r, hr, hisOk⟩
    have hallTrue : (∀ r ∈ reports, r.report.isOk = false) ↔ True := iff_true_intro hall
    by_cases hempty : reports = []
    · subst hempty
      simp
    · simp only [hok, hallTrue, iff_false, not_not, ne_eq, hempty, not_false_iff, true_and, iff_true,
        and_self, false_or]

theorem isp_clean : "isp-main".toList ≠ [] ∧ ∀ c ∈ "isp-main".toList, isWhitespace c = false := by
  have hall : ("isp-main".toList.all fun c => !isWhitespace c) = true := by decide +kernel
  refine ⟨by decide +kernel, fun c hc => ?_⟩
  simpa using List.all_eq_true.mp hall c hc

theorem failure_line : '\n' ∉ "http://192.0.2.1/".toList ∧
    '\n' ∉ "connect to 192.0.2.1:80 failed".toList := by
  decide +kernel

/-- One provider, whose only target cannot be reached. -/
def unreachableReport : ProviderReport fun _ => "connect to 192.0.2.1:80 failed" where
  name := "isp-main"
  report := {
    passed := 0, total := 1, required := 1, tampered := none, latency := none
    perTarget := [("http://192.0.2.1/", .unreachable (.failed .connectFailed))] }
  name_ne := isp_clean.1
  name_clean := isp_clean.2
  required_pos := Nat.one_pos
  label_line := List.forall_mem_singleton.mpr failure_line.1
  detail_line := fun _ _ _ _ => failure_line.2
  tampered_line := fun _ h => absurd h (Option.some_ne_none _).symm

/-- Of an older build's output, the update takes this report for a quorum that was met. -/
theorem classify_unreachable_met :
    ¬ ∀ (text : Detail → String) (millis : Duration → ℕ) (reports : List (ProviderReport text)),
      Agrees (classifyPreflight (probeOutput millis true reports) true) reports ∧
        Agrees (classifyPreflight (probeOutput millis false reports) true) reports := by
  intro h
  have hmet : (classifyPreflight (probeOutput (fun _ => 0) false [unreachableReport]) true).isMet =
      true := by decide +kernel
  obtain ⟨r, hr, hisOk⟩ := (h _ (fun _ => 0) [unreachableReport]).2.1.mp hmet
  obtain rfl := List.mem_singleton.mp hr
  exact absurd hisOk (by decide)

end Vlb.Update
