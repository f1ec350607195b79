import Vlb.Update.FrontEnds

/-!
# The release that is offered

The updater offers the first release of the list that the setting allows, in the order of the server.

* `Offered`: what is to hold of an offer.
* `check_eq_ok`: what an offer has been made of.
* **`offered_iff`**: the offer is of the newest release where the first one allowed is the newest.
-/

namespace Vlb.Update

/-! ## What is to be offered -/

/-- A release that the setting allows. -/
def allowed (allowPrerelease : Bool) (r : GhRelease) : Bool :=
  !r.draft && (allowPrerelease || !r.prerelease)

/-- The name of an archive for the target. -/
def BuiltFor (target name : String) : Prop := ∃ lead, name = lead ++ target ++ ".tar.gz"

/-- An offer, for a target. -/
structure Offered (allowPrerelease : Bool) (target : String) (releases : List GhRelease)
    (info : ReleaseInfo) : Prop where
  /-- No release that is allowed is newer. -/
  newest : ∀ r ∈ releases, allowed allowPrerelease r = true →
    isNewer r.tagName.toList info.tag.toList = false
  /-- What is offered is an archive for the target, of a release that is allowed. Its checksum is the
  asset that the release has under the name of the archive. -/
  published : ∃ r ∈ releases, allowed allowPrerelease r = true ∧ r.tagName = info.tag ∧
    (∃ a ∈ r.assets, a.name = info.assetName ∧ a.browserDownloadUrl = info.archiveUrl ∧
      BuiltFor target a.name) ∧
    ∀ url, info.checksumUrl = some url →
      ∃ a ∈ r.assets, a.name = info.assetName ++ ".sha256" ∧ a.browserDownloadUrl = url

/-- The first release allowed is as new as any of the others. -/
def NewestFirst (allowPrerelease : Bool) (releases : List GhRelease) : Prop :=
  ∀ first rest, releases.filter (allowed allowPrerelease) = first :: rest →
    ∀ r ∈ rest, isNewer r.tagName.toList first.tagName.toList = false

/-! ## What is offered -/

variable {env : Env} {allowPrerelease : Bool} {target : String} {releases : List GhRelease}
  {info : ReleaseInfo}

/-- The archive is an asset of the release, and its name ends in the target. -/
theorem archiveOf_eq_some {candidate : GhRelease} {archive : GhAsset}
    (h : archiveOf candidate target = some archive) :
    archive ∈ candidate.assets ∧ BuiltFor target archive.name := by
  obtain hname | ⟨-, hsuffix⟩ := Option.or_eq_some_iff.mp h
  · have hwant := List.find?_some hname
    exact ⟨List.mem_of_find?_eq_some hname, _, of_decide_eq_true hwant⟩
  · have hends := List.find?_some hsuffix
    obtain ⟨lead, hlead⟩ := List.isSuffixOf_iff_suffix.mp hends
    refine ⟨List.mem_of_find?_eq_some hsuffix, String.ofList lead, ?_⟩
    rw [← String.toList_inj, ← hlead]
    simp

/-- **What an offer has been made of**: the first release allowed, and two of its assets. -/
theorem check_eq_ok (htarget : env.hostTarget = .ok target)
    (h : check env allowPrerelease (.ok releases) = .ok info) :
    ∃ first rest, releases.filter (allowed allowPrerelease) = first :: rest ∧
      first.tagName = info.tag ∧
      ∃ archive ∈ first.assets, BuiltFor target archive.name ∧ archive.name = info.assetName ∧
        archive.browserDownloadUrl = info.archiveUrl ∧
        info.checksumUrl = (first.assets.find? fun a => a.name = archive.name ++ ".sha256").map
          GhAsset.browserDownloadUrl := by
  have hfind : ((releases.filter fun r => !r.draft).find? fun r => allowPrerelease || !r.prerelease) =
      (releases.filter (allowed allowPrerelease)).head? := by
    rw [← List.head?_filter, List.filter_filter]
    refine congrArg List.head? (List.filter_congr fun r _ => ?_)
    rw [allowed, Bool.and_comm]
  simp only [check, htarget, hfind, bind, Except.bind] at h
  cases hallowed : releases.filter (allowed allowPrerelease) with
  | nil => simp [hallowed] at h
  | cons first rest =>
    simp only [hallowed, List.head?_cons, Option.elim_some] at h
    cases harchive : archiveOf first target with
    | none => simp [harchive] at h
    | some archive =>
      simp only [harchive, Option.elim_some] at h
      obtain rfl := Except.ok.inj h
      obtain ⟨hmem, hbuilt⟩ := archiveOf_eq_some harchive
      exact ⟨first, rest, rfl, rfl, archive, hmem, hbuilt, rfl, rfl, rfl⟩

theorem isNewer_self (tag : List Char) : isNewer tag tag = false := by
  rw [Bool.eq_false_iff]
  intro h
  exact absurd h (Bool.eq_false_iff.mp (isNewer_asymm h))

/-- **An offer is of the newest release where the first one that the setting allows is the newest.** -/
theorem offered_iff (htarget : env.hostTarget = .ok target)
    (h : check env allowPrerelease (.ok releases) = .ok info) :
    Offered allowPrerelease target releases info ↔ NewestFirst allowPrerelease releases := by
  obtain ⟨first, rest, hallowed, htag, archive, harchive, hbuilt, hname, hurl, hchecksum⟩ :=
    check_eq_ok htarget h
  have hmem (r : GhRelease) :
      r ∈ releases ∧ allowed allowPrerelease r = true ↔ r = first ∨ r ∈ rest := by
    rw [← List.mem_filter, hallowed, List.mem_cons]
  constructor
  · intro hoffered first' rest' hallowed' r hr
    obtain ⟨rfl, rfl⟩ := List.cons.inj (hallowed.symm.trans hallowed')
    obtain ⟨hin, hok⟩ := (hmem r).mpr (Or.inr hr)
    rw [htag]
    exact hoffered.newest r hin hok
  · intro hfirst
    obtain ⟨hin, hok⟩ := (hmem first).mpr (Or.inl rfl)
    constructor
    · intro r hr hallow
      rw [← htag]
      obtain rfl | hrest := (hmem r).mp ⟨hr, hallow⟩
      · exact isNewer_self _
      · exact hfirst first rest hallowed r hrest
    · refine ⟨first, hin, hok, htag, ⟨archive, harchive, hname, hurl, hbuilt⟩,
        fun url hsome => ?_⟩
      rw [hchecksum, Option.map_eq_some_iff] at hsome
      obtain ⟨a, hfind, hsum⟩ := hsome
      have hsumName := List.find?_some hfind
      rw [hname] at hsumName
      exact ⟨a, List.mem_of_find?_eq_some hfind, of_decide_eq_true hsumName, hsum⟩

/-! ## A backport -/

/-- A gateway of the first stable series. -/
def gateway : Env := ⟨"1.0.0", .ok "x86_64-unknown-linux-musl", "o/r", false⟩

/-- A release as it is published, with the checksum of its archive. -/
def publishedAs (tag : String) : GhRelease where
  tagName := tag
  assets := [⟨"vlb-" ++ tag ++ "-x86_64-unknown-linux-musl.tar.gz", "https://a/" ++ tag⟩,
    ⟨"vlb-" ++ tag ++ "-x86_64-unknown-linux-musl.tar.gz.sha256", "https://a/" ++ tag ++ "/sum"⟩]

/-- What is offered of it. -/
def offerOf (tag : String) : ReleaseInfo where
  tag := tag
  prerelease := false
  archiveUrl := "https://a/" ++ tag
  checksumUrl := some ("https://a/" ++ tag ++ "/sum")
  assetName := "vlb-" ++ tag ++ "-x86_64-unknown-linux-musl.tar.gz"

theorem offered_newest : Offered false "x86_64-unknown-linux-musl"
    [publishedAs "v1.1.0", publishedAs "v1.0.1"] (offerOf "v1.1.0") := by
  have htarget : gateway.hostTarget = .ok "x86_64-unknown-linux-musl" := rfl
  refine (offered_iff htarget (by decide +kernel)).mpr ?_
  intro first rest hallowed r hr
  obtain ⟨rfl, rfl⟩ := List.cons.inj hallowed.symm
  obtain rfl := List.mem_singleton.mp hr
  decide +kernel

/-- A fix for the last series is published after the next series, and hides it. -/
theorem not_offered : ¬ ∀ (env : Env) (allowPrerelease : Bool) (target : String)
    (releases : List GhRelease) (info : ReleaseInfo), env.hostTarget = .ok target →
    check env allowPrerelease (.ok releases) = .ok info →
    Offered allowPrerelease target releases info := by
  intro hall
  have hoffered := hall gateway false _ [publishedAs "v1.0.1", publishedAs "v1.1.0"]
    (offerOf "v1.0.1") rfl (by decide +kernel)
  have hnew := hoffered.newest (publishedAs "v1.1.0") (by simp) (by decide)
  exact absurd hnew (by decide +kernel)

end Vlb.Update
