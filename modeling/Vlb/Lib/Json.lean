import Mathlib.Algebra.Order.BigOperators.Group.List
import Mathlib.Algebra.Ring.Nat
import Vlb.Lib.Text

/-!
# JSON

Values as `serde_json` writes them, on one line and without blanks, and as it reads them.

* `Json`, `print`: a value, and its text.
* `parse`: the reader. `parse_print`: it reads what was written.
* `width`: the length of the text in bytes, with one equation for each kind of value.
-/

/-! ## Values -/

/-- A character of a number. -/
def Json.isNumberChar (c : Char) : Bool :=
  c.isDigit || c == '-' || c == '+' || c == '.' || c == 'e' || c == 'E'

/-- A number, as it is written. -/
structure Json.Number where
  text : List Char
  nonempty : text ≠ []
  chars : ∀ c ∈ text, isNumberChar c = true
  deriving DecidableEq

/-- A value. -/
inductive Json where
  | null
  | bool (b : Bool)
  | num (n : Json.Number)
  | str (s : String)
  | arr (items : List Json)
  | obj (fields : List (String × Json))

namespace Json

open Text

/-! ## Writing -/

def quote : Char := Char.ofNat 0x22

def backslash : Char := Char.ofNat 0x5c

def openBrace : Char := Char.ofNat 0x7b

def closeBrace : Char := Char.ofNat 0x7d

/-- A character of a string. What delimits is escaped, and control characters are. -/
def escape (c : Char) : List Char :=
  if c = quote ∨ c = backslash then [backslash, c]
  else if c.toNat = 8 then [backslash, 'b']
  else if c.toNat = 9 then [backslash, 't']
  else if c.toNat = 10 then [backslash, 'n']
  else if c.toNat = 12 then [backslash, 'f']
  else if c.toNat = 13 then [backslash, 'r']
  else if c.toNat < 0x20 then
    [backslash, 'u', '0', '0', Nat.digitChar (c.toNat / 16), Nat.digitChar (c.toNat % 16)]
  else [c]

/-- The text between quotation marks. -/
def quoted (s : String) : List Char := quote :: s.toList.flatMap escape ++ [quote]

/-- Texts with commas between them, and what closes the list. -/
def joined (close : Char) : List (List Char) → List Char
  | [] => [close]
  | t :: ts => t ++ ts.flatMap (',' :: ·) ++ [close]

mutual

/-- A value without blanks. -/
def print : Json → List Char
  | .null => ['n', 'u', 'l', 'l']
  | .bool true => ['t', 'r', 'u', 'e']
  | .bool false => ['f', 'a', 'l', 's', 'e']
  | .num n => n.text
  | .str s => quoted s
  | .arr items => '[' :: joined ']' (printItems items)
  | .obj fields => openBrace :: joined closeBrace (printFields fields)

/-- The items of a list, each of them printed. -/
def printItems : List Json → List (List Char)
  | [] => []
  | v :: vs => print v :: printItems vs

/-- The members of an object, each of them printed. -/
def printFields : List (String × Json) → List (List Char)
  | [] => []
  | (k, v) :: fs => (quoted k ++ ':' :: print v) :: printFields fs

end

theorem printItems_eq (vs : List Json) : printItems vs = vs.map print := by
  induction vs with
  | nil => rfl
  | cons v vs ih => rw [printItems, ih, List.map_cons]

/-- A member of an object. -/
def printField (f : String × Json) : List Char := quoted f.1 ++ ':' :: print f.2

theorem printFields_eq (fs : List (String × Json)) : printFields fs = fs.map printField := by
  induction fs with
  | nil => rfl
  | cons f fs ih => rw [printFields, ih, List.map_cons, printField]

/-! ## Reading -/

/-- Takes a value off the front of a text. -/
abbrev Reader (α : Type) := List Char → Option (α × List Char)

/-- What may stand between two tokens. -/
def isBlank (c : Char) : Bool := c == ' ' || c == '\n' || c == '\t' || c == '\r'

/-- Blanks are skipped. -/
def skip (cs : List Char) : List Char := cs.dropWhile isBlank

/-- The character that stands for a control character or for itself. -/
def unescape (c : Char) : Option Char :=
  if c = quote ∨ c = backslash ∨ c = '/' then some c
  else if c = 'b' then some (Char.ofNat 8)
  else if c = 't' then some (Char.ofNat 9)
  else if c = 'n' then some (Char.ofNat 10)
  else if c = 'f' then some (Char.ofNat 12)
  else if c = 'r' then some (Char.ofNat 13)
  else none

/-- The character of four digits. Half a surrogate pair is none. -/
def ofHex (w x y z : Char) : Option Char := do
  let n := (← digit? 16 w) * 4096 + (← digit? 16 x) * 256 + (← digit? 16 y) * 16 + (← digit? 16 z)
  if n.isValidChar then some (Char.ofNat n) else none

/-- A string, after its first quote. -/
def string : Reader (List Char)
  | [] => none
  | c :: rest =>
    if c = quote then some ([], rest)
    else if c = backslash then
      match rest with
      | [] => none
      | 'u' :: w :: x :: y :: z :: rest => do
        let c ← ofHex w x y z
        let (cs, rest) ← string rest
        some (c :: cs, rest)
      | e :: rest => do
        let c ← unescape e
        let (cs, rest) ← string rest
        some (c :: cs, rest)
    else if c.toNat < 0x20 then none
    else do
      let (cs, rest) ← string rest
      some (c :: cs, rest)

/-- The items after the first, up to what closes the list. -/
def more {α : Type} (item : Reader α) (close : Char) : ℕ → Reader (List α)
  | 0, _ => none
  | fuel + 1, cs =>
    match skip cs with
    | [] => none
    | c :: rest =>
      if c = close then some ([], rest)
      else if c = ',' then do
        let (a, rest) ← item rest
        let (as, rest) ← more item close fuel rest
        some (a :: as, rest)
      else none

/-- The items up to the closing bracket, with commas between them. -/
def sequence {α : Type} (item : Reader α) (close : Char) (fuel : ℕ) : Reader (List α) := fun cs =>
  match skip cs with
  | [] => none
  | c :: rest =>
    if c = close then some ([], rest)
    else do
      let (a, rest) ← item (c :: rest)
      let (as, rest) ← more item close fuel rest
      some (a :: as, rest)

/-- A member of an object. -/
def field (value : Reader Json) : Reader (String × Json) := fun cs =>
  match skip cs with
  | [] => none
  | c :: rest =>
    if c = quote then do
      let (k, rest) ← string rest
      match skip rest with
      | ':' :: rest =>
        let (v, rest) ← value rest
        some ((String.ofList k, v), rest)
      | _ => none
    else none

/-- A number, or nothing of the kind. -/
def number : Reader Json := fun cs =>
  if h : cs.takeWhile isNumberChar = [] then none
  else some (.num ⟨cs.takeWhile isNumberChar, h, fun _ hc => List.mem_takeWhile_imp hc⟩,
    cs.dropWhile isNumberChar)

/-- A keyword, after its first letter. -/
def keyword (letters : List Char) (v : Json) : Reader Json := fun cs =>
  (stripPrefix letters cs).map fun rest => (v, rest)

/-- The value at the front, with what follows it. -/
def value : ℕ → Reader Json
  | 0, _ => none
  | fuel + 1, cs =>
    match skip cs with
    | [] => none
    | c :: rest =>
      if c = quote then (string rest).map fun (s, rest) => (.str (String.ofList s), rest)
      else if c = '[' then
        (sequence (value fuel) ']' fuel rest).map fun (vs, rest) => (.arr vs, rest)
      else if c = openBrace then
        (sequence (field (value fuel)) closeBrace fuel rest).map fun (fs, rest) => (.obj fs, rest)
      else if c = 'n' then keyword ['u', 'l', 'l'] .null rest
      else if c = 't' then keyword ['r', 'u', 'e'] (.bool true) rest
      else if c = 'f' then keyword ['a', 'l', 's', 'e'] (.bool false) rest
      else number (c :: rest)

/-- `serde_json::from_str`, up to the value: nothing but blanks may follow. -/
def parse (cs : List Char) : Option Json :=
  (value cs.length cs).bind fun (v, rest) => if skip rest = [] then some v else none

/-! ## Induction on values -/

section Induction

variable {P : Json → Prop} (null : P .null) (bool : ∀ b, P (.bool b)) (num : ∀ n, P (.num n))
  (str : ∀ s, P (.str s)) (arr : ∀ items, (∀ v ∈ items, P v) → P (.arr items))
  (obj : ∀ fields, (∀ f ∈ fields, P f.2) → P (.obj fields))

include null bool num str arr obj in
@[elab_as_elim]
theorem induct (v : Json) : P v := by
  refine @Json.rec P (fun vs => ∀ v ∈ vs, P v) (fun fs => ∀ f ∈ fs, P f.2) (fun f => P f.2)
    null bool num str arr obj ?_ ?_ ?_ ?_ ?_ v
  · exact fun _ h => absurd h List.not_mem_nil
  · exact fun v vs hv hvs => List.forall_mem_cons.mpr ⟨hv, hvs⟩
  · exact fun _ h => absurd h List.not_mem_nil
  · exact fun f fs hf hfs => List.forall_mem_cons.mpr ⟨hf, hfs⟩
  · exact fun _ _ hv => hv

end Induction

/-! ## What is written is read -/

/-- A number ends before this. -/
def Stops (rest : List Char) : Prop := ∀ c ∈ rest.head?, isNumberChar c = false

/-- What a value can start with. -/
def IsStart (c : Char) : Prop := isBlank c = false ∧ c ≠ ']' ∧ c ≠ closeBrace

instance (c : Char) : Decidable (IsStart c) := inferInstanceAs (Decidable (_ ∧ _ ∧ _))

/-- The reader takes this text for this. -/
structure Reads {α : Type} (item : Reader α) (text : List Char) (a : α) : Prop where
  starts : ∃ c cs, text = c :: cs ∧ IsStart c
  reads : ∀ rest, Stops rest → item (text ++ rest) = some (a, rest)

section Escapes

theorem digit?_digitChar {n : ℕ} (h : n < 16) : digit? 16 (Nat.digitChar n) = some n := by
  have hall : ∀ m < 16, digit? 16 (Nat.digitChar m) = some m := by decide
  exact hall n h

theorem ofHex_control {c : Char} (h : c.toNat < 0x20) :
    ofHex '0' '0' (Nat.digitChar (c.toNat / 16)) (Nat.digitChar (c.toNat % 16)) = some c := by
  have hzero : digit? 16 '0' = some 0 := by decide
  have hvalue : 0 * 4096 + 0 * 256 + c.toNat / 16 * 16 + c.toNat % 16 = c.toNat := by omega
  have hvalid : c.toNat.isValidChar := c.valid
  simp only [ofHex, hzero, digit?_digitChar (n := c.toNat / 16) (by omega),
    digit?_digitChar (n := c.toNat % 16) (by omega), Option.bind_eq_bind, Option.bind_some, hvalue,
    if_pos hvalid, Char.ofNat_toNat]

theorem string_backslash {e : Char} (he : e ≠ 'u') (rest : List Char) :
    string (backslash :: e :: rest) =
      (unescape e).bind fun c => (string rest).map fun (s, rest) => (c :: s, rest) := by
  rw [string.eq_def]
  simp only [show backslash ≠ quote by decide, if_false, if_true]
  split
  · contradiction
  · rename_i h
    exact absurd (List.cons.inj h).1 he
  · rename_i h
    obtain ⟨rfl, rfl⟩ := List.cons.inj h
    cases unescape e <;> cases string rest <;> rfl

theorem string_ofHex {w x y z c : Char} (h : ofHex w x y z = some c) (rest : List Char) :
    string (backslash :: 'u' :: w :: x :: y :: z :: rest) =
      (string rest).map fun (s, rest) => (c :: s, rest) := by
  rw [string.eq_def]
  simp only [show backslash ≠ quote by decide, if_false, if_true, h]
  cases string rest <;> rfl

theorem string_escape (c : Char) (cs : List Char) :
    string (escape c ++ cs) = (string cs).map fun (s, rest) => (c :: s, rest) := by
  have hshort {e : Char} (he : e ≠ 'u') (hc : unescape e = some c) :
      string (backslash :: e :: cs) = (string cs).map fun (s, rest) => (c :: s, rest) := by
    rw [string_backslash he, hc, Option.bind_some]
  have hof {n : ℕ} (h : c.toNat = n) : some (Char.ofNat n) = some c := by rw [← h, Char.ofNat_toNat]
  unfold escape
  split_ifs with h₁ h₂ h₃ h₄ h₅ h₆ h₇
  · rcases h₁ with rfl | rfl
    · exact hshort (by decide) (by decide)
    · exact hshort (by decide) (by decide)
  · exact hshort (by decide) (hof h₂)
  · exact hshort (by decide) (hof h₃)
  · exact hshort (by decide) (hof h₄)
  · exact hshort (by decide) (hof h₅)
  · exact hshort (by decide) (hof h₆)
  · exact string_ofHex (ofHex_control h₇) cs
  · rw [not_or] at h₁
    rw [List.singleton_append, string.eq_def]
    simp only [if_neg h₁.1, if_neg h₁.2, if_neg h₇]
    cases string cs <;> rfl

theorem string_quoted (cs rest : List Char) :
    string (cs.flatMap escape ++ quote :: rest) = some (cs, rest) := by
  induction cs with
  | nil =>
    rw [List.flatMap_nil, List.nil_append, string.eq_def]
    simp only [if_true]
  | cons c cs ih => rw [List.flatMap_cons, List.append_assoc, string_escape, ih, Option.map_some]

end Escapes

theorem skip_cons {c : Char} (h : isBlank c = false) (cs : List Char) : skip (c :: cs) = c :: cs := by
  rw [skip, List.dropWhile_cons_of_neg (by simp [h])]

section Sequences

variable {α : Type} {item : Reader α} {write : α → List Char} {close : Char} {as : List α}

/-- What can close a list. -/
structure Closes (close : Char) : Prop where
  notBlank : isBlank close = false
  notNumber : isNumberChar close = false
  notComma : close ≠ ','
  notStart : ¬ IsStart close

theorem closes_bracket : Closes ']' where
  notBlank := by decide
  notNumber := by decide
  notComma := by decide
  notStart h := h.2.1 rfl

theorem closes_brace : Closes closeBrace where
  notBlank := by decide
  notNumber := by decide
  notComma := by decide
  notStart h := h.2.2 rfl

theorem stops_more (hclose : Closes close) (texts : List (List Char)) (rest : List Char) :
    Stops (texts.flatMap (',' :: ·) ++ close :: rest) := by
  intro c hc
  cases texts with
  | nil =>
    cases hc
    exact hclose.notNumber
  | cons t ts =>
    cases hc
    decide

theorem more_joined (hclose : Closes close) (has : ∀ a ∈ as, Reads item (write a) a)
    {fuel : ℕ} (hfuel : as.length < fuel) (rest : List Char) :
    more item close fuel ((as.map write).flatMap (',' :: ·) ++ close :: rest) = some (as, rest) := by
  induction as generalizing fuel with
  | nil =>
    obtain ⟨n, rfl⟩ := Nat.exists_eq_succ_of_ne_zero (Nat.ne_zero_of_lt hfuel)
    rw [List.map_nil, List.flatMap_nil, List.nil_append, more.eq_def]
    simp only [skip_cons hclose.notBlank, if_true]
  | cons a as ih =>
    obtain ⟨n, rfl⟩ := Nat.exists_eq_succ_of_ne_zero (Nat.ne_zero_of_lt hfuel)
    have hrest := (has a List.mem_cons_self).reads _ (stops_more hclose (as.map write) rest)
    have hmore := ih (fun b hb => has b (List.mem_cons_of_mem a hb)) (Nat.lt_of_succ_lt_succ hfuel)
    rw [List.map_cons, List.flatMap_cons, List.cons_append, List.cons_append, List.append_assoc,
      more.eq_def]
    simp only [skip_cons (show isBlank ',' = false by decide),
      if_neg hclose.notComma.symm, if_true, hrest, hmore, Option.bind_eq_bind, Option.bind_some]

theorem sequence_joined (hclose : Closes close) (has : ∀ a ∈ as, Reads item (write a) a)
    {fuel : ℕ} (hfuel : as.length ≤ fuel) (rest : List Char) :
    sequence item close fuel (joined close (as.map write) ++ rest) = some (as, rest) := by
  cases as with
  | nil =>
    rw [List.map_nil, joined, List.singleton_append, sequence]
    simp only [skip_cons hclose.notBlank, if_true]
  | cons a as =>
    have ha := has a List.mem_cons_self
    obtain ⟨c, cs, htext, hstart⟩ := ha.starts
    have hne : c ≠ close := fun h => hclose.notStart (h ▸ hstart)
    have hrest := ha.reads _ (stops_more hclose (as.map write) rest)
    have hmore := more_joined hclose (fun b hb => has b (List.mem_cons_of_mem a hb))
      (Nat.lt_of_succ_le hfuel) rest
    rw [htext, List.cons_append] at hrest
    rw [List.map_cons, joined, List.append_assoc, List.append_assoc, List.singleton_append, htext,
      List.cons_append, sequence]
    simp only [skip_cons hstart.1, if_neg hne, hrest, hmore, Option.bind_eq_bind, Option.bind_some]

end Sequences

section Values

theorem length_joined (close : Char) (texts : List (List Char)) :
    (joined close texts).length = (texts.map List.length).sum + max 1 texts.length := by
  cases texts with
  | nil => rfl
  | cons t ts =>
    have hts : (ts.flatMap (',' :: ·)).length = (ts.map List.length).sum + ts.length := by
      induction ts with
      | nil => rfl
      | cons t ts ih =>
        simp only [List.flatMap_cons, List.length_append, List.length_cons, List.map_cons,
          List.sum_cons, ih]
        omega
    simp only [joined, List.length_append, List.map_cons, List.sum_cons, List.length_cons,
      List.length_nil, hts]
    omega

theorem isStart_of_isNumberChar {c : Char} (h : isNumberChar c = true) : IsStart c := by
  refine ⟨Bool.eq_false_iff.mpr fun hblank => ?_, ?_, ?_⟩
  · simp only [isBlank, Bool.or_eq_true, beq_iff_eq] at hblank
    obtain ((rfl | rfl) | rfl) | rfl := hblank <;> exact absurd h (by decide)
  · rintro rfl
    exact absurd h (by decide)
  · rintro rfl
    exact absurd h (by decide)

theorem reads_keyword {c : Char} {letters : List Char} {v : Json} (hstart : IsStart c)
    {item : Reader Json} (h : ∀ rest, item (c :: rest) = keyword letters v rest) :
    Reads item (c :: letters) v := by
  refine ⟨⟨c, letters, rfl, hstart⟩, fun rest _ => ?_⟩
  have hprefix : letters.isPrefixOf (letters ++ rest) = true :=
    List.isPrefixOf_iff_prefix.mpr (List.prefix_append letters rest)
  rw [List.cons_append, h, keyword, stripPrefix, if_pos hprefix, List.drop_left, Option.map_some]

theorem reads_number (n : Number) : Reads number n.text (.num n) := by
  obtain ⟨c, cs, htext⟩ := List.exists_cons_of_ne_nil n.nonempty
  have hc : isNumberChar c = true := n.chars c (by rw [htext]; exact List.mem_cons_self)
  refine ⟨⟨c, cs, htext, isStart_of_isNumberChar hc⟩, fun rest hstops => ?_⟩
  have htake : (n.text ++ rest).takeWhile isNumberChar = n.text := by
    rw [List.takeWhile_append_of_pos n.chars]
    cases rest with
    | nil => simp
    | cons d rest => simp [hstops d rfl]
  have hdrop : (n.text ++ rest).dropWhile isNumberChar = rest := by
    rw [List.dropWhile_append_of_pos n.chars]
    cases rest with
    | nil => rfl
    | cons d rest => simp [hstops d rfl]
  simp only [number, htake, hdrop, dif_neg n.nonempty]

theorem starts_quoted (s : String) (cs : List Char) : ∃ c ds, quoted s ++ cs = c :: ds ∧ IsStart c :=
  ⟨quote, _, rfl, by decide, by decide, by decide⟩

theorem reads_field {value : Reader Json} {f : String × Json} (h : Reads value (print f.2) f.2) :
    Reads (field value) (printField f) f := by
  refine ⟨starts_quoted f.1 _, fun rest hstops => ?_⟩
  have hskip : skip (quote :: f.1.toList.flatMap escape ++ quote :: ':' :: (print f.2 ++ rest)) =
      quote :: (f.1.toList.flatMap escape ++ quote :: ':' :: (print f.2 ++ rest)) :=
    skip_cons (by decide) _
  have htext : printField f ++ rest =
      quote :: f.1.toList.flatMap escape ++ quote :: ':' :: (print f.2 ++ rest) := by
    simp [printField, quoted]
  rw [field, htext, hskip]
  simp only [if_true, string_quoted, Option.bind_eq_bind, Option.bind_some,
    skip_cons (show isBlank ':' = false by decide), h.reads rest hstops, String.ofList_toList]

theorem value_number {c : Char} (h : isNumberChar c = true) (fuel : ℕ) (rest : List Char) :
    value (fuel + 1) (c :: rest) = number (c :: rest) := by
  have hne (d : Char) (hd : isNumberChar d = false) : c ≠ d := by
    rintro rfl
    exact absurd h (by simp [hd])
  rw [value.eq_def]
  simp only [skip_cons (isStart_of_isNumberChar h).1]
  rw [if_neg (hne _ (by decide)), if_neg (hne _ (by decide)), if_neg (hne _ (by decide)),
    if_neg (hne _ (by decide)), if_neg (hne _ (by decide)), if_neg (hne _ (by decide))]

theorem le_of_mem_joined (close : Char) {texts : List (List Char)} {t : List Char} (h : t ∈ texts) :
    t.length ≤ (joined close texts).length := by
  have hle := List.single_le_sum (fun _ _ => Nat.zero_le _) _ (List.mem_map_of_mem (f := List.length) h)
  rw [length_joined]
  omega

/-- **The reader takes back what was written**, with as much fuel as there is text. -/
theorem reads_value (v : Json) : ∀ fuel, (print v).length ≤ fuel → Reads (value fuel) (print v) v := by
  induction v using induct with
  | null =>
    rintro (_ | fuel) hfuel
    · exact absurd hfuel (by decide)
    · exact reads_keyword (by decide) fun rest => rfl
  | bool b =>
    rintro (_ | fuel) hfuel
    · cases b <;> exact absurd hfuel (by decide)
    · cases b <;> exact reads_keyword (by decide) fun rest => rfl
  | num n =>
    rintro (_ | fuel) hfuel
    · exact absurd (List.eq_nil_of_length_eq_zero (Nat.le_zero.mp hfuel)) n.nonempty
    · have hread := reads_number n
      refine ⟨hread.starts, fun rest hstops => ?_⟩
      obtain ⟨c, cs, htext⟩ := List.exists_cons_of_ne_nil n.nonempty
      have hc : isNumberChar c = true := n.chars c (by rw [htext]; exact List.mem_cons_self)
      rw [← hread.reads rest hstops, print, htext, List.cons_append, value_number hc]
  | str s =>
    rintro (_ | fuel) hfuel
    · exact absurd hfuel (by simp [print, quoted])
    · refine ⟨by simpa [print] using starts_quoted s [], fun rest _ => ?_⟩
      have htext : print (.str s) ++ rest = quote :: (s.toList.flatMap escape ++ quote :: rest) := by
        simp [print, quoted]
      rw [htext, value.eq_def]
      simp only [skip_cons (show isBlank quote = false by decide), if_true, string_quoted,
        Option.map_some, String.ofList_toList]
  | arr items ih =>
    rintro (_ | fuel) hfuel
    · exact absurd hfuel (by simp [print])
    · refine ⟨⟨'[', _, rfl, by decide⟩, fun rest _ => ?_⟩
      rw [print, printItems_eq, List.length_cons] at hfuel
      have hitems : ∀ v ∈ items, Reads (value fuel) (print v) v := fun v hv => ih v hv fuel (by
        have := le_of_mem_joined ']' (List.mem_map_of_mem (f := print) hv)
        omega)
      have hlength : items.length ≤ fuel := by
        rw [length_joined, List.length_map] at hfuel
        omega
      have hread := sequence_joined closes_bracket hitems hlength rest
      rw [print, printItems_eq, List.cons_append, value.eq_def]
      simp only [skip_cons (show isBlank '[' = false by decide), show '[' ≠ quote by decide, if_false,
        if_true, hread, Option.map_some]
  | obj fields ih =>
    rintro (_ | fuel) hfuel
    · exact absurd hfuel (by simp [print])
    · refine ⟨⟨openBrace, _, rfl, by decide⟩, fun rest _ => ?_⟩
      rw [print, printFields_eq, List.length_cons] at hfuel
      have hfields : ∀ f ∈ fields, Reads (field (value fuel)) (printField f) f := fun f hf =>
        reads_field (ih f hf fuel (by
          have := le_of_mem_joined closeBrace (List.mem_map_of_mem (f := printField) hf)
          rw [printField, List.length_append, List.length_cons] at this
          omega))
      have hlength : fields.length ≤ fuel := by
        rw [length_joined, List.length_map] at hfuel
        omega
      have hread := sequence_joined closes_brace hfields hlength rest
      rw [print, printFields_eq, List.cons_append, value.eq_def]
      simp only [skip_cons (show isBlank openBrace = false by decide),
        show openBrace ≠ quote by decide, show openBrace ≠ '[' by decide, if_false, if_true, hread,
        Option.map_some]

/-- **What is written is read.** -/
theorem parse_print (v : Json) : parse (print v) = some v := by
  have hread := (reads_value v _ le_rfl).reads [] fun _ h => nomatch h
  rw [List.append_nil] at hread
  rw [parse, hread]
  rfl

end Values

/-! ## One line -/

section Line

theorem lineFeed_not_mem_escape (c : Char) : '\n' ∉ escape c := by
  have hdigit {n : ℕ} (h : n < 16) : Nat.digitChar n ≠ '\n' := by
    have hall : ∀ m < 16, Nat.digitChar m ≠ '\n' := by decide
    exact hall n h
  unfold escape
  split_ifs with h₁ h₂ h₃ h₄ h₅ h₆ h₇
  · rcases h₁ with rfl | rfl <;> decide
  · decide
  · decide
  · decide
  · decide
  · decide
  · simp only [List.mem_cons, List.not_mem_nil, or_false, not_or]
    exact ⟨by decide, by decide, by decide, by decide, (hdigit (by omega)).symm, (hdigit (by omega)).symm⟩
  · rw [List.mem_singleton]
    rintro rfl
    exact h₄ rfl

theorem lineFeed_not_mem_quoted (s : String) : '\n' ∉ quoted s := by
  simp only [quoted, List.mem_append, List.mem_cons, List.mem_flatMap, List.not_mem_nil, or_false,
    not_or, not_exists, not_and]
  exact ⟨⟨by decide, fun c _ => lineFeed_not_mem_escape c⟩, by decide⟩

theorem lineFeed_not_mem_joined {close : Char} {texts : List (List Char)} (hclose : '\n' ≠ close)
    (h : ∀ t ∈ texts, '\n' ∉ t) : '\n' ∉ joined close texts := by
  cases texts with
  | nil => exact fun hin => hclose (List.mem_singleton.mp hin)
  | cons t ts =>
    simp only [joined, List.mem_append, List.mem_flatMap, List.mem_cons, List.not_mem_nil, or_false,
      not_or, not_exists, not_and]
    exact ⟨⟨h t List.mem_cons_self, fun u hu => ⟨by decide, h u (List.mem_cons_of_mem t hu)⟩⟩, hclose⟩

theorem lineFeed_not_mem_print (v : Json) : '\n' ∉ print v := by
  induction v using induct with
  | null => decide
  | bool b => cases b <;> decide
  | num n => exact fun h => absurd (n.chars _ h) (by decide)
  | str s => exact lineFeed_not_mem_quoted s
  | arr items ih =>
    rw [print, printItems_eq, List.mem_cons, not_or]
    refine ⟨by decide, lineFeed_not_mem_joined (by decide) fun t ht => ?_⟩
    obtain ⟨v, hv, rfl⟩ := List.mem_map.mp ht
    exact ih v hv
  | obj fields ih =>
    rw [print, printFields_eq, List.mem_cons, not_or]
    refine ⟨by decide, lineFeed_not_mem_joined (by decide) fun t ht => ?_⟩
    obtain ⟨f, hf, rfl⟩ := List.mem_map.mp ht
    rw [printField, List.mem_append, List.mem_cons, not_or, not_or]
    exact ⟨lineFeed_not_mem_quoted f.1, by decide, ih f hf⟩

theorem joined_eq_concat (close : Char) (texts : List (List Char)) :
    ∃ front, joined close texts = front ++ [close] := by
  cases texts with
  | nil => exact ⟨[], rfl⟩
  | cons t ts => exact ⟨_, rfl⟩

theorem trim_print_obj (fields : List (String × Json)) :
    trim (print (.obj fields) ++ ['\n']) = print (.obj fields) := by
  obtain ⟨front, hfront⟩ := joined_eq_concat closeBrace (printFields fields)
  rw [print, hfront, ← List.cons_append]
  exact trim_line _ _ (by decide) (by decide)

theorem trim_obj (fields : List (String × Json)) :
    trim (print (.obj fields)) = print (.obj fields) := by
  obtain ⟨front, hfront⟩ := joined_eq_concat closeBrace (printFields fields)
  rw [print, hfront, ← List.cons_append]
  exact trim_eq_self _ _ (by decide) (by decide)

end Line

/-! ## Lengths -/

/-- The length of a value in bytes. -/
def width (v : Json) : ℕ := (utf8 (print v)).length

/-- The length of a character in a string. -/
def charWidth (c : Char) : ℕ :=
  if c = quote ∨ c = backslash ∨ c.toNat ∈ [8, 9, 10, 12, 13] then 2
  else if c.toNat < 0x20 then 6
  else c.utf8Size

/-- The length of a string, with its quotes. -/
def textWidth (s : String) : ℕ := 2 + (s.toList.map charWidth).sum

/-- The length of a number, of which every character is ASCII. -/
def Number.width (n : Number) : ℕ := n.text.length

/-- The length of a list whose items are of these lengths. -/
def listWidth (widths : List ℕ) : ℕ := 2 + widths.sum + (widths.length - 1)

/-- The length of an object without its values: the names, the colons, the commas and the braces. -/
def frame (names : List String) : ℕ :=
  2 + (names.map fun k => textWidth k + 1).sum + (names.length - 1)

section Widths

theorem textWidth_append (s t : String) : textWidth (s ++ t) + 2 = textWidth s + textWidth t := by
  simp only [textWidth, String.toList_append, List.map_append, List.sum_append]
  omega

theorem length_utf8_append (cs ds : List Char) :
    (utf8 (cs ++ ds)).length = (utf8 cs).length + (utf8 ds).length := by
  rw [utf8_append, List.length_append]

theorem length_utf8_escape (c : Char) : (utf8 (escape c)).length = charWidth c := by
  have hdigit {n : ℕ} (h : n < 16) : (Nat.digitChar n).utf8Size = 1 := by
    have hall : ∀ m < 16, (Nat.digitChar m).utf8Size = 1 := by decide
    exact hall n h
  have hshort (h : c.toNat ∈ [8, 9, 10, 12, 13]) (e : Char) (he : e.utf8Size = 1) :
      (utf8 [backslash, e]).length = charWidth c := by
    rw [charWidth, if_pos (Or.inr (Or.inr h)), length_utf8_cons, length_utf8_cons, he]
    rfl
  unfold escape
  split_ifs with h₁ h₂ h₃ h₄ h₅ h₆ h₇
  · rcases h₁ with rfl | rfl <;> rfl
  · exact hshort (by simp [h₂]) 'b' rfl
  · exact hshort (by simp [h₃]) 't' rfl
  · exact hshort (by simp [h₄]) 'n' rfl
  · exact hshort (by simp [h₅]) 'f' rfl
  · exact hshort (by simp [h₆]) 'r' rfl
  · rw [not_or] at h₁
    simp [charWidth, h₁, h₂, h₃, h₄, h₅, h₆, h₇, length_utf8_cons,
      hdigit (n := c.toNat / 16) (by omega), hdigit (n := c.toNat % 16) (by omega)]
    rfl
  · rw [not_or] at h₁
    simp [charWidth, h₁, h₂, h₃, h₄, h₅, h₆, h₇, length_utf8_cons]
    rfl

theorem length_utf8_escapes (cs : List Char) :
    (utf8 (cs.flatMap escape)).length = (cs.map charWidth).sum := by
  induction cs with
  | nil => rfl
  | cons c cs ih =>
    rw [List.flatMap_cons, length_utf8_append, length_utf8_escape, ih, List.map_cons, List.sum_cons]

theorem length_utf8_quoted (s : String) : (utf8 (quoted s)).length = textWidth s := by
  have hquote : quote.utf8Size = 1 := rfl
  rw [quoted, textWidth, length_utf8_append, length_utf8_cons, length_utf8_escapes, length_utf8_cons, hquote]
  show 1 + _ + (1 + 0) = _
  omega

theorem utf8Size_of_isNumberChar {c : Char} (h : isNumberChar c = true) : c.utf8Size = 1 := by
  rw [Char.utf8Size_eq_one_iff]
  simp only [isNumberChar, Bool.or_eq_true, beq_iff_eq, Char.isDigit, Bool.and_eq_true,
    decide_eq_true_eq, ge_iff_le] at h
  obtain ((((h | rfl) | rfl) | rfl) | rfl) | rfl := h
  · have hle : c.val ≤ 57 := h.2
    rw [UInt32.le_iff_toNat_le] at hle ⊢
    simp only [UInt32.reduceToNat] at *
    omega
  all_goals decide

theorem width_bool (b : Bool) : width (.bool b) = if b then 4 else 5 := by cases b <;> rfl

theorem width_num (n : Number) : width (.num n) = n.width := by
  have hall : ∀ cs : List Char, (∀ c ∈ cs, isNumberChar c = true) → (utf8 cs).length = cs.length := by
    intro cs
    induction cs with
    | nil => exact fun _ => rfl
    | cons c cs ih =>
      intro h
      obtain ⟨hc, hcs⟩ := List.forall_mem_cons.mp h
      rw [length_utf8_cons, utf8Size_of_isNumberChar hc, ih hcs, List.length_cons]
      omega
  exact hall n.text n.chars

theorem width_str (s : String) : width (.str s) = textWidth s := length_utf8_quoted s

theorem length_utf8_joined {close : Char} (hclose : close.utf8Size = 1) (texts : List (List Char)) :
    (utf8 (joined close texts)).length =
      1 + (texts.map fun t => (utf8 t).length).sum + (texts.length - 1) := by
  cases texts with
  | nil => exact (length_utf8_cons close []).trans (by rw [hclose]; rfl)
  | cons t ts =>
    have hts : (utf8 (ts.flatMap (',' :: ·))).length =
        (ts.map fun t => (utf8 t).length).sum + ts.length := by
      induction ts with
      | nil => rfl
      | cons t ts ih =>
        rw [List.flatMap_cons, length_utf8_append, length_utf8_cons, ih, List.map_cons, List.sum_cons,
          List.length_cons, show ','.utf8Size = 1 from rfl]
        omega
    rw [joined, length_utf8_append, length_utf8_append, hts, length_utf8_cons, hclose, List.map_cons,
      List.sum_cons, List.length_cons]
    show _ + (1 + 0) = _
    omega

/-- A list is as long as its items, the commas between them and two brackets. -/
theorem width_arr (items : List Json) : width (.arr items) = listWidth (items.map width) := by
  rw [width, print, printItems_eq, length_utf8_cons, length_utf8_joined rfl, List.map_map,
    List.length_map, show '['.utf8Size = 1 from rfl, listWidth, List.length_map]
  show 1 + (1 + (items.map width).sum + _) = _
  omega

theorem length_utf8_printField (f : String × Json) :
    (utf8 (printField f)).length = textWidth f.1 + 1 + width f.2 := by
  rw [printField, length_utf8_append, length_utf8_cons, length_utf8_quoted,
    show ':'.utf8Size = 1 from rfl, width]
  omega

/-- An object is as long as its members, with their names and colons, the commas and two braces. -/
theorem width_obj (fields : List (String × Json)) :
    width (.obj fields) = frame (fields.map Prod.fst) + (fields.map fun f => width f.2).sum := by
  have hsum : (fields.map fun f => textWidth f.1 + 1 + width f.2).sum =
      ((fields.map Prod.fst).map fun k => textWidth k + 1).sum + (fields.map fun f => width f.2).sum := by
    rw [List.map_map, ← List.sum_map_add]
    rfl
  rw [width, print, printFields_eq, length_utf8_cons, length_utf8_joined rfl, List.map_map,
    List.length_map, show openBrace.utf8Size = 1 from rfl]
  simp only [Function.comp_def, length_utf8_printField, hsum, frame, List.length_map]
  omega

end Widths

end Json
