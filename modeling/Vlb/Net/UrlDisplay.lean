import Vlb.Net.Url

/-!
# URLs, displayed and parsed again

The display form of a URL is what a redirect is followed by and what a canary target is named by.
Parsing trims the whole text before it drops the fragment, so that a blank may be left at the end of
a path.

* `parse_eq_ok`: what is parsed, part by part.
* `noBlank_iff`: a blank before the fragment is one at the end of the path.
* `parse_display`: a URL whose path ends in no blank is parsed from its display form.
* **`parse_display_iff`**: exactly when the display form stands for the URL.
-/

namespace Vlb.Url

/-- The text up to its fragment ends in no blank. -/
def NoBlankBeforeFragment (raw : String) : Prop :=
  ∀ c, ((Text.trim raw.toList).takeWhile (· ≠ '#')).getLast? = some c → Text.isWhitespace c = false

/-! ## Parsing, part by part -/

section Parts

variable {scheme : Scheme} {rest : List Char}

/-- What stands before the authority. -/
def schemeText (scheme : Scheme) : List Char := scheme.asStr.toList ++ "://".toList

theorem splitScheme_append (scheme : Scheme) (rest : List Char) :
    splitScheme (schemeText scheme ++ rest) = .ok (scheme, rest) := by
  unfold splitScheme
  cases scheme with
  | http =>
    have htext : schemeText .http = "http://".toList := by decide
    have hother : Text.stripPrefix "https://".toList ("http://".toList ++ rest) = none := rfl
    simp only [htext, hother, Text.stripPrefix_append]
  | https =>
    have htext : schemeText .https = "https://".toList := by decide
    simp only [htext, Text.stripPrefix_append]

theorem splitScheme_eq_ok {raw : List Char} :
    splitScheme raw = .ok (scheme, rest) ↔ raw = schemeText scheme ++ rest := by
  constructor
  · intro h
    unfold splitScheme at h
    split at h
    · rename_i rest' hstrip
      cases h
      exact Text.stripPrefix_eq_some hstrip
    · split at h
      · rename_i rest' hstrip
        cases h
        exact Text.stripPrefix_eq_some hstrip
      · cases h
  · rintro rfl
    exact splitScheme_append scheme rest

/-- **What is parsed**: every part is accepted, and the URL is made of them. -/
theorem parse_eq_ok {raw : String} {u : Url} : parse raw = .ok u ↔
    ∃ scheme rest host port, Text.trim raw.toList = schemeText scheme ++ rest ∧
      '@' ∉ (splitPath rest).1 ∧ (splitPath rest).1.head? ≠ some '[' ∧
      splitPort scheme (splitPath rest).1 = .ok (host, port) ∧ host ≠ [] ∧
      host.all isHostChar = true ∧ (splitPath rest).2.any isForbiddenInPath = false ∧
      u = { scheme, port
            host := String.ofList (Text.toAsciiLowercase host)
            path := String.ofList (splitPath rest).2 } := by
  simp only [parse, bind, Except.bind, pure, Except.pure, throw, throwThe, MonadExceptOf.throw]
  constructor
  · intro h
    repeat' split at h
    all_goals try contradiction
    rename_i _ parts hscheme huser hbracket _ hostPort hport hne hhost hpath
    cases h
    refine ⟨_, _, _, _, splitScheme_eq_ok.mp hscheme, huser, hbracket, hport, ?_, ?_, ?_, rfl⟩
    · exact mt List.isEmpty_iff.mpr hne
    · simpa using hhost
    · exact Bool.eq_false_of_not_eq_true hpath
  · rintro ⟨scheme, rest, host, port, htrim, huser, hbracket, hport, hne, hhost, hpath, rfl⟩
    rw [splitScheme_eq_ok.mpr htrim]
    simp only [huser, hbracket, hport, hhost, hpath, if_false, List.isEmpty_iff, hne]
    rfl

end Parts

/-- Nothing is trimmed from a text that begins with a scheme and ends in no blank. -/
theorem trim_schemeText (scheme : Scheme) {text : List Char} (hne : text ≠ [])
    (hlast : ∀ c, text.getLast? = some c → Text.isWhitespace c = false) :
    Text.trim (schemeText scheme ++ text) = schemeText scheme ++ text := by
  obtain ⟨cs, hcs⟩ : ∃ cs, schemeText scheme = 'h' :: cs := by
    cases scheme
    · exact ⟨_, rfl⟩
    · exact ⟨_, rfl⟩
  obtain ⟨front, d, rfl⟩ := (List.eq_nil_or_concat' text).resolve_left hne
  have hd := hlast d (by rw [List.getLast?_concat])
  have hself := Text.trim_eq_self 'h' (cs ++ front) (by decide) hd
  rw [hcs]
  simpa [List.append_assoc] using hself

/-! ## Characters -/

theorem isHostChar_ascii {c : Char} (h : isHostChar c = true) : c.toNat < 128 := by
  have hval : c.val.toNat = c.toNat := rfl
  have hupper (h : c.isUpper = true) : c.val ≤ 90 := (of_decide_eq_true h).2
  have hlower (h : c.isLower = true) : c.val ≤ 122 := of_decide_eq_true (Bool.and_eq_true_iff.mp h).2
  have hdigit (h : c.isDigit = true) : c.val ≤ 57 := of_decide_eq_true (Bool.and_eq_true_iff.mp h).2
  simp only [UInt32.le_iff_toNat_le] at hupper hlower hdigit
  change (((((c.isUpper || c.isLower) || c.isDigit) || c == '.') || c == '-') || c == '_') = true at h
  simp only [Bool.or_eq_true, beq_iff_eq] at h
  rcases h with ((((h | h) | h) | rfl) | rfl) | rfl
  · have : c.val.toNat ≤ 90 := hupper h
    omega
  · have : c.val.toNat ≤ 122 := hlower h
    omega
  · have : c.val.toNat ≤ 57 := hdigit h
    omega
  all_goals decide

theorem isHostChar_of_digit {c : Char} (h : (Text.digit? 10 c).isSome = true) :
    isHostChar c = true := by
  unfold Text.digit? at h
  dsimp only at h
  by_cases hdigit : '0' ≤ c ∧ c ≤ '9'
  · have hd : c.isDigit = true := Char.isDigit_iff_toNat.mpr hdigit
    simp [isHostChar, Char.isAlphanum, hd]
  · rw [if_neg hdigit] at h
    have hlarge : ¬ (if 'a' ≤ c ∧ c ≤ 'f' then c.toNat - 'a'.toNat + 10
        else if 'A' ≤ c ∧ c ≤ 'F' then c.toNat - 'A'.toNat + 10 else 10) < 10 := by
      split_ifs <;> omega
    rw [if_neg hlarge] at h
    cases h

theorem authority_plain {c : Char} (h : isHostChar c = true ∨ c = ':') :
    Text.isWhitespace c = false ∧ c ≠ '#' ∧ c ≠ '/' ∧ c ≠ '@' ∧ c ≠ '[' := by
  have hall : ∀ n < 128, isHostChar (Char.ofNat n) = true ∨ Char.ofNat n = ':' →
      Text.isWhitespace (Char.ofNat n) = false ∧ Char.ofNat n ≠ '#' ∧ Char.ofNat n ≠ '/' ∧
        Char.ofNat n ≠ '@' ∧ Char.ofNat n ≠ '[' := by decide +kernel
  have hascii : c.toNat < 128 := by
    rcases h with h | rfl
    · exact isHostChar_ascii h
    · decide
  have hplain := hall c.toNat hascii
  rw [Char.ofNat_toNat] at hplain
  exact hplain h

/-! ## The end of the path -/

theorem getLast?_authority {scheme : Scheme} {authority host : List Char} {port : UInt16} {c : Char}
    (hport : splitPort scheme authority = .ok (host, port)) (hhost : host.all isHostChar = true)
    (hc : authority.getLast? = some c) : Text.isWhitespace c = false := by
  refine (authority_plain (Or.inl ?_)).1
  unfold splitPort at hport
  split at hport
  · cases hport
    exact List.all_eq_true.mp hhost c (List.mem_of_getLast? hc)
  · rename_i front back hsplit
    split at hport
    · cases hport
    · rename_i n hn
      have hnumber : Text.number 10 back = some n := (Option.filter_eq_some_iff.mp hn).1
      have hback : back ≠ [] := by
        rintro rfl
        cases hnumber
      rw [Text.rsplitOnce_eq_some hsplit, ← List.singleton_append, ← List.append_assoc,
        List.getLast?_append_of_ne_nil _ hback] at hc
      exact isHostChar_of_digit (Text.getLast?_number hnumber hc)

/-- **A blank before the fragment** is one at the end of the path. -/
theorem noBlank_iff {raw : String} {u : Url} (h : parse raw = .ok u) : NoBlankBeforeFragment raw ↔
    ∀ c, u.path.toList.getLast? = some c → Text.isWhitespace c = false := by
  obtain ⟨scheme, rest, host, port, htrim, -, -, hport, hne, hhost, -, rfl⟩ := parse_eq_ok.mp h
  have hscheme : ∀ c ∈ schemeText scheme, decide (c ≠ '#') = true :=
    List.all_eq_true.mp (by cases scheme <;> decide)
  have hsplit := List.takeWhile_append_dropWhile (p := fun c => decide (c ≠ '/'))
    (l := rest.takeWhile (· ≠ '#'))
  rw [NoBlankBeforeFragment, htrim, List.takeWhile_append_of_pos hscheme, String.toList_ofList]
  rw [splitPath] at hport ⊢
  dsimp only at hport ⊢
  generalize (rest.takeWhile (· ≠ '#')).takeWhile (· ≠ '/') = authority at hsplit hport
  generalize (rest.takeWhile (· ≠ '#')).dropWhile (· ≠ '/') = path at hsplit ⊢
  rw [← hsplit]
  rcases path with _ | ⟨b, path⟩
  · -- there is no path, and the text ends with the authority
    have hauthority : authority ≠ [] := by
      rintro rfl
      cases hport
      exact hne rfl
    rw [List.append_nil, List.getLast?_append_of_ne_nil _ hauthority]
    refine iff_of_true (fun c hc => getLast?_authority hport hhost hc) fun c hc => ?_
    cases hc
    decide
  · rw [List.getLast?_append_of_ne_nil _ (by simp), List.getLast?_append_of_ne_nil _ (by simp)]
    rfl

/-! ## The display form -/

variable {u : Url}

theorem toLower_toLower (c : Char) : c.toLower.toLower = c.toLower := by
  unfold Char.toLower
  split_ifs with h h'
  · exfalso
    revert h'
    simp [UInt32.le_iff_toNat_le] at h ⊢
    omega
  · rfl
  · rfl

/-- The host of a parsed URL is in lower case, and its path has no fragment. -/
theorem parse_normal {raw : String} (h : parse raw = .ok u) :
    Text.toAsciiLowercase u.host.toList = u.host.toList ∧ '#' ∉ u.path.toList := by
  obtain ⟨scheme, rest, host, port, -, -, -, -, -, -, -, rfl⟩ := parse_eq_ok.mp h
  constructor
  · simp only [Text.toAsciiLowercase, String.toList_ofList, List.map_map]
    exact List.map_congr_left fun c _ => toLower_toLower c
  · rw [String.toList_ofList, splitPath]
    dsimp only
    split
    · decide
    · intro hmem
      have hin := (List.dropWhile_suffix _).subset hmem
      have hkept := List.mem_takeWhile_imp hin
      exact absurd hkept (by decide)

theorem display_toList (u : Url) :
    u.display.toList = schemeText u.scheme ++ (u.hostHeader.toList ++ u.path.toList) := by
  simp [display, schemeText]

/-- The port of the display form, where there is one, is read as it was written. -/
theorem splitPort_hostHeader (h : u.WellFormed) :
    splitPort u.scheme u.hostHeader.toList = .ok (u.host.toList, u.port) := by
  have hcolon : ':' ∉ u.host.toList := fun hmem => absurd (h.host ':' hmem) (by decide)
  unfold hostHeader splitPort
  split_ifs with hdefault
  · rw [Text.rsplitOnce_eq_none hcolon, hdefault]
  · have hdigits : ':' ∉ Nat.toDigits 10 u.port.toNat := Text.not_mem_toDigits (by decide)
    have hheader : (u.host ++ ":" ++ toString u.port.toNat).toList =
        u.host.toList ++ ':' :: Nat.toDigits 10 u.port.toNat := by
      simp
    have hread : Text.fromStrRadix 16 10 (Nat.toDigits 10 u.port.toNat) = some u.port.toNat := by
      rw [Text.fromStrRadix, Text.number_toDigits, Option.filter_some,
        if_pos (decide_eq_true u.port.toNat_lt)]
    have hzero : u.port.toNat ≠ 0 := fun hzero => h.port (UInt16.toNat_inj.mp hzero)
    rw [hheader, Text.rsplitOnce_append hdigits]
    simp only [hread, hzero, if_false, UInt16.ofNat_toNat]

theorem hostHeader_chars (h : u.WellFormed) {c : Char} (hc : c ∈ u.hostHeader.toList) :
    isHostChar c = true ∨ c = ':' := by
  unfold hostHeader at hc
  split_ifs at hc
  · exact Or.inl (h.host c hc)
  · have hmem : c ∈ u.host.toList ∨ c = ':' ∨ c ∈ Nat.toDigits 10 u.port.toNat := by
      simpa [Nat.toString_eq_ofList_toDigits, or_assoc] using hc
    rcases hmem with hhost | hcolon | hdigit
    · exact Or.inl (h.host c hhost)
    · exact Or.inr hcolon
    · have hd := Nat.isDigit_of_mem_toDigits (by decide) (by decide) hdigit
      exact Or.inl (by simp [isHostChar, Char.isAlphanum, hd])

theorem splitPath_append {authority path : List Char} (hfragment : '#' ∉ authority ++ path)
    (hslash : '/' ∉ authority) (hpath : path.head? = some '/') :
    splitPath (authority ++ path) = (authority, path) := by
  obtain ⟨tail, rfl⟩ := List.head?_eq_some_iff.mp hpath
  have hall : ∀ c ∈ authority ++ '/' :: tail, decide (c ≠ '#') = true := fun c hc =>
    decide_eq_true fun heq => hfragment (heq ▸ hc)
  have hfront : ∀ c ∈ authority, decide (c ≠ '/') = true := fun c hc =>
    decide_eq_true fun heq => hslash (heq ▸ hc)
  rw [splitPath, List.takeWhile_eq_self_iff.mpr hall, List.takeWhile_append_of_pos hfront,
    List.dropWhile_append_of_pos hfront]
  simp

/-- **A URL is parsed from its display form** when its path ends in no blank. -/
theorem parse_display (h : u.WellFormed)
    (hlower : Text.toAsciiLowercase u.host.toList = u.host.toList) (hfragment : '#' ∉ u.path.toList)
    (hlast : ∀ c, u.path.toList.getLast? = some c → Text.isWhitespace c = false) :
    parse u.display = .ok u := by
  have hplain {c : Char} (hc : c ∈ u.hostHeader.toList) := authority_plain (hostHeader_chars h hc)
  have hsplit : splitPath (u.hostHeader.toList ++ u.path.toList) =
      (u.hostHeader.toList, u.path.toList) := by
    refine splitPath_append (fun hmem => ?_) (fun hmem => (hplain hmem).2.2.1 rfl) h.path
    rcases List.mem_append.mp hmem with hmem | hmem
    · exact (hplain hmem).2.1 rfl
    · exact hfragment hmem
  have hne : u.path.toList ≠ [] := by
    obtain ⟨tail, htail⟩ := List.head?_eq_some_iff.mp h.path
    rw [htail]
    exact List.cons_ne_nil _ _
  have htrim : Text.trim u.display.toList = u.display.toList := by
    rw [display_toList]
    refine trim_schemeText u.scheme (List.append_ne_nil_of_right_ne_nil _ hne) fun c hc => ?_
    rw [List.getLast?_append_of_ne_nil _ hne] at hc
    exact hlast c hc
  refine parse_eq_ok.mpr ⟨u.scheme, u.hostHeader.toList ++ u.path.toList, u.host.toList, u.port,
    htrim.trans (display_toList u), ?_⟩
  rw [hsplit]
  refine ⟨fun hmem => (hplain hmem).2.2.2.1 rfl, fun hhead => ?_, splitPort_hostHeader h, ?_,
    List.all_eq_true.mpr h.host, ?_, ?_⟩
  · exact (hplain (List.mem_of_head? hhead)).2.2.2.2 rfl
  · exact fun hnil => h.host_ne (String.toList_inj.mp hnil)
  · refine List.any_eq_false.mpr fun c hc => ?_
    rw [h.path_clean c hc]
    exact Bool.false_ne_true
  · rw [hlower, String.ofList_toList, String.ofList_toList]

/-- **The display form stands for the URL** just when no blank stands before the fragment of the
text that it was parsed from. -/
theorem parse_display_iff {raw : String} (h : parse raw = .ok u) :
    parse u.display = .ok u ↔ NoBlankBeforeFragment raw := by
  obtain ⟨hlower, hfragment⟩ := parse_normal h
  have hwell := parse_wellFormed h
  rw [noBlank_iff h]
  constructor
  · intro hdisplay
    refine (noBlank_iff hdisplay).mp fun c hc => ?_
    -- there is no fragment to drop from the display form, and what is trimmed ends in no blank
    have hall : ∀ c ∈ Text.trim u.display.toList, decide (c ≠ '#') = true := by
      intro c hc
      rw [decide_eq_true_iff]
      rintro rfl
      have hmem : '#' ∈ u.display.toList :=
        (List.dropWhile_suffix _).subset ((List.rdropWhile_prefix _ _).subset hc)
      rw [display_toList] at hmem
      rcases List.mem_append.mp hmem with hscheme | hmem
      · revert hscheme
        cases u.scheme <;> decide
      · rcases List.mem_append.mp hmem with hmem | hmem
        · exact (authority_plain (hostHeader_chars hwell hmem)).2.1 rfl
        · exact hfragment hmem
    rw [List.takeWhile_eq_self_iff.mpr hall] at hc
    exact Text.getLast?_trim hc
  · exact parse_display hwell hlower hfragment

/-- The display form of a plain URL. -/
theorem parse_display_iff_plain :
    parse ({ scheme := .http, host := "e.com", port := 8080, path := "/p?q=1" } : Url).display =
      .ok { scheme := .http, host := "e.com", port := 8080, path := "/p?q=1" } ↔
    NoBlankBeforeFragment " http://E.com:8080/p?q=1#top" :=
  parse_display_iff (by decide +kernel)

/-- A tab before the fragment is kept by the parser and lost with the display form. -/
theorem parse_display_tab : ¬ ∀ (raw : String) (u : Url), parse raw = .ok u →
    parse u.display = .ok u := by
  intro hall
  have hparse := hall "http://e.com/a\t#b"
    { scheme := .http, host := "e.com", port := 80, path := "/a\t" } (by decide +kernel)
  revert hparse
  decide +kernel

end Vlb.Url
