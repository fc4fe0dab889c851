import Chatbit.Lib.Json
import Mathlib.Data.List.TakeDrop
import Mathlib.Tactic.Common

/-!
# Reading JSON back

`loads` inverts `dumps` on the values whose strings are code points without two surrogates that are
a pair, whose objects have distinct keys and whose floats read back (`Plain`), with an indent and
without one.
-/

namespace Chatbit.Lib

/-! ## Code points -/

/-- A text is its code points. -/
lemma codePoints_inj {s t : String} : codePoints s = codePoints t ↔ s = t := by
  refine ⟨fun h => String.toList_inj.mp (List.map_injective_iff.mpr ?_ h), congrArg codePoints⟩
  exact fun c d hcd => Char.toNat_inj.mp hcd

/-- A string has its code points. -/
lemma ofCodePoints_codePoints (s : String) : ofCodePoints (codePoints s) = some s := by
  have hchars : ∀ l : List Char, (l.map Char.toNat).mapM (fun c : ℕ =>
      if Nat.isValidChar c then some (Char.ofNat c) else none) = some l := by
    intro l
    induction l with
    | nil => rfl
    | cons c l ih =>
      have hvalid : Nat.isValidChar c.toNat := c.valid
      rw [List.map_cons, List.mapM_cons, if_pos hvalid, ih, Char.ofNat_toNat]
      rfl
  rw [ofCodePoints, codePoints, hchars, Option.map_some, String.ofList_toList]

namespace Json

variable {F : Type} {c n level fuel : ℕ} {s : List ℕ} {rest text : List Char}

/-- What holds of the first character of a text that has one. -/
lemma forall_head_cons {p : Char → Prop} {first : Char} (h : p first) (text : List Char) :
    ∀ c ∈ (first :: text).head?, p c := by
  intro c hc
  obtain rfl : first = c := by simpa using hc
  exact h

/-- What a text can hold: code points, and no two surrogates in a row that are a pair. -/
def IsText : List ℕ → Prop
  | [] => True
  | c :: s => c < 0x110000 ∧
      (isHighSurrogate c = true → ∀ low ∈ s.head?, isLowSurrogate low = false) ∧ IsText s

/-- No character is a surrogate. -/
lemma isHighSurrogate_toNat (c : Char) : isHighSurrogate c.toNat = false := by
  have hvalid : c.toNat < 0xD800 ∨ 0xDFFF < c.toNat ∧ c.toNat < 0x110000 := c.valid
  simp only [isHighSurrogate, Bool.and_eq_false_iff, decide_eq_false_iff_not]
  omega

/-- The code points of a text are a text. -/
lemma isText_codePoints (s : String) : IsText (codePoints s) := by
  unfold codePoints
  induction s.toList with
  | nil => trivial
  | cons c s ih =>
    have hvalid : c.toNat < 0xD800 ∨ 0xDFFF < c.toNat ∧ c.toNat < 0x110000 := c.valid
    refine ⟨by omega, fun hhigh => ?_, ih⟩
    rw [isHighSurrogate_toNat] at hhigh
    cases hhigh

/-! ## Strings -/

lemma toNat_ofNat_ascii (h : n < 0x80) : (Char.ofNat n).toNat = n := by
  have hall : ∀ n < 0x80, (Char.ofNat n).toNat = n := by decide
  exact hall n h

/-- A hexadecimal digit reads as its number. -/
lemma hexDigit_digitChar (h : n < 16) : hexDigit (Nat.digitChar n) = some n := by
  have hall : ∀ n < 16, hexDigit (Nat.digitChar n) = some n := by decide
  exact hall n h

/-- A quote ends the string. -/
lemma scanString_close (text : List Char) : scanString ('"' :: text) = some ([], text) := by
  rw [scanString.eq_def]
  rfl

/-- The escape of a letter is read. -/
lemma scanString_backslash {letter : Char} (hne : letter ≠ 'u')
    (hletter : backslash.lookup letter = some n) (hscan : scanString text = some (s, rest)) :
    scanString ('\\' :: letter :: text) = some (n :: s, rest) := by
  rw [scanString.eq_def]
  simp only [show ('\\' : Char) ≠ '"' by decide, if_false, if_true, if_neg hne, hletter, hscan,
    Option.bind_eq_bind, Option.bind_some]
  rfl

/-- A character that stands for itself is read. -/
lemma scanString_plain {c : Char} (hquote : c ≠ '"') (hbackslash : c ≠ '\\')
    (hprint : 0x20 ≤ c.toNat) (hscan : scanString text = some (s, rest)) :
    scanString (c :: text) = some (c.toNat :: s, rest) := by
  rw [scanString.eq_def]
  simp only [if_neg hquote, if_neg hbackslash, if_neg (Nat.not_lt.mpr hprint), hscan,
    Option.bind_eq_bind, Option.bind_some]
  rfl

/-- An escaped code unit is read. -/
lemma scanString_unicodeEscape (h : n < 0x10000) (hscan : scanString text = some (s, rest)) :
    scanString (unicodeEscape n ++ text) = some (consUnit n s, rest) := by
  have h3 := hexDigit_digitChar (n := n / 0x1000 % 16) (Nat.mod_lt _ (by decide))
  have h2 := hexDigit_digitChar (n := n / 0x100 % 16) (Nat.mod_lt _ (by decide))
  have h1 := hexDigit_digitChar (n := n / 0x10 % 16) (Nat.mod_lt _ (by decide))
  have h0 := hexDigit_digitChar (n := n % 16) (Nat.mod_lt _ (by decide))
  have hvalue : 0x1000 * (n / 0x1000 % 16) + 0x100 * (n / 0x100 % 16) + 0x10 * (n / 0x10 % 16) +
      n % 16 = n := by omega
  rw [unicodeEscape, scanString.eq_def]
  simp only [List.cons_append, List.nil_append, show ('\\' : Char) ≠ '"' by decide, if_false,
    if_true, h3, h2, h1, h0, hscan, Option.bind_eq_bind, Option.bind_some, hvalue]
  rfl

/-- A unit that no low surrogate follows stands for itself. -/
lemma consUnit_eq (h : isHighSurrogate c = true → ∀ low ∈ s.head?, isLowSurrogate low = false) :
    consUnit c s = c :: s := by
  cases s with
  | nil => rfl
  | cons low s =>
    rw [consUnit, if_neg]
    intro hpair
    rw [Bool.and_eq_true] at hpair
    rw [h hpair.1 low rfl] at hpair
    exact absurd hpair.2 Bool.false_ne_true

/-- A pair of surrogates is one code point. -/
lemma consUnit_surrogates {high low : ℕ} (hhigh : isHighSurrogate high = true)
    (hlow : isLowSurrogate low = true) :
    consUnit high (low :: s) = (0x10000 + (high - 0xD800) * 0x400 + (low - 0xDC00)) :: s := by
  rw [consUnit, hhigh, hlow]
  rfl

/-- The surrogates of a code point above U+FFFF are read as the code point. -/
lemma consUnit_pair (hmin : 0x10000 ≤ c) (hmax : c < 0x110000) :
    consUnit (0xD800 + (c - 0x10000) / 0x400) (consUnit (0xDC00 + (c - 0x10000) % 0x400) s) =
      c :: s := by
  generalize hhigh : 0xD800 + (c - 0x10000) / 0x400 = high
  generalize hlow : 0xDC00 + (c - 0x10000) % 0x400 = low
  have hjoin : 0x10000 + (high - 0xD800) * 0x400 + (low - 0xDC00) = c := by omega
  have hnot : isHighSurrogate low = false := by
    simp only [isHighSurrogate, Bool.and_eq_false_iff, decide_eq_false_iff_not]
    omega
  have hhighSurrogate : isHighSurrogate high = true := by
    simp only [isHighSurrogate, Bool.and_eq_true, decide_eq_true_eq]
    omega
  have hlowSurrogate : isLowSurrogate low = true := by
    simp only [isLowSurrogate, Bool.and_eq_true, decide_eq_true_eq]
    omega
  -- a low surrogate joins nothing that stands behind it
  rw [consUnit_eq fun h => absurd (hnot.symm.trans h) Bool.false_ne_true,
    consUnit_surrogates hhighSurrogate hlowSurrogate, hjoin]

/-- A code point is read. -/
lemma scanString_escape (h : IsText (c :: s)) (hscan : scanString text = some (s, rest)) :
    scanString (escape c ++ text) = some (c :: s, rest) := by
  obtain ⟨hlt, hpair, -⟩ := h
  unfold escape
  cases hshort : shortEscapes.lookup c with
  | some letter =>
    have hall : ∀ e ∈ shortEscapes, e.2 ≠ 'u' ∧ backslash.lookup e.2 = some e.1 := by decide
    obtain ⟨before, after, hmem, -⟩ := List.lookup_eq_some_iff.mp hshort
    obtain ⟨hu, hback⟩ := hall (c, letter) (by rw [hmem]; simp)
    exact scanString_backslash hu hback hscan
  | none =>
    have hnone := List.lookup_eq_none_iff.mp hshort
    have hbackslash : c ≠ 0x5C := by simpa using hnone (0x5C, '\\') (by decide)
    have hquote : c ≠ 0x22 := by simpa using hnone (0x22, '"') (by decide)
    by_cases hprint : 0x20 ≤ c ∧ c ≤ 0x7E
    · -- the character itself
      have hto := toNat_ofNat_ascii (n := c) (by omega)
      have hne : ∀ d : Char, c ≠ d.toNat → Char.ofNat c ≠ d := by
        intro d hd heq
        rw [heq] at hto
        exact hd hto.symm
      simp only [if_pos hprint]
      have hplain := scanString_plain (hne '"' hquote) (hne '\\' hbackslash) (by omega) hscan
      rw [hto] at hplain
      exact hplain
    · -- one code unit, or two
      simp only [if_neg hprint]
      by_cases hbmp : c < 0x10000
      · rw [if_pos hbmp, scanString_unicodeEscape hbmp hscan, consUnit_eq hpair]
      · rw [if_neg hbmp, List.append_assoc,
          scanString_unicodeEscape (by omega) (scanString_unicodeEscape (by omega) hscan),
          consUnit_pair (by omega) hlt]

/-- A string is read up to its closing quote. -/
lemma scanString_quote (h : IsText s) (rest : List Char) :
    scanString (s.flatMap escape ++ '"' :: rest) = some (s, rest) := by
  induction s with
  | nil => exact scanString_close rest
  | cons c s ih =>
    rw [List.flatMap_cons, List.append_assoc]
    exact scanString_escape h (ih h.2.2)

/-! ## Numbers -/

/-- What may follow a number: nothing that would be read as part of it. -/
def Delimited (rest : List Char) : Prop :=
  ∀ c ∈ rest.head?, c.isDigit = false ∧ c ≠ '.' ∧ c ≠ 'e' ∧ c ≠ 'E'

/-- A match of `NUMBER_RE`. -/
structure Number.WellFormed (n : Number) : Prop where
  whole : n.whole = ['0'] ∨ n.whole ≠ [] ∧ n.whole.head? ≠ some '0'
  digits : ∀ c ∈ n.whole, c.isDigit = true
  fraction : ∀ c ∈ n.fraction, c.isDigit = true
  exponent : n.exponent = [] ∨ ∃ e sign digits, n.exponent = e :: (sign ++ digits) ∧
    (e = 'e' ∨ e = 'E') ∧ (sign = [] ∨ sign = ['-'] ∨ sign = ['+']) ∧ digits ≠ [] ∧
    ∀ c ∈ digits, c.isDigit = true

/-- Digits are read up to the first character that is none. -/
lemma span_digits {digits : List Char} (hdigits : ∀ c ∈ digits, c.isDigit = true)
    (hrest : ∀ c ∈ rest.head?, c.isDigit = false) :
    (digits ++ rest).span Char.isDigit = (digits, rest) := by
  have hnone : rest.takeWhile Char.isDigit = [] ∧ rest.dropWhile Char.isDigit = rest := by
    cases rest with
    | nil => exact ⟨rfl, rfl⟩
    | cons c rest =>
      have hc := hrest c rfl
      exact ⟨List.takeWhile_cons_of_neg (by rw [hc]; decide),
        List.dropWhile_cons_of_neg (by rw [hc]; decide)⟩
  rw [List.span_eq_takeWhile_dropWhile, List.takeWhile_append_of_pos hdigits,
    List.dropWhile_append_of_pos hdigits, hnone.1, hnone.2, List.append_nil]

/-- The whole part of a number ends where its digits do. -/
lemma scanWhole_append {n : Number} (h : n.WellFormed)
    (hrest : ∀ c ∈ rest.head?, c.isDigit = false) :
    scanWhole (n.whole ++ rest) = some (n.whole, rest) := by
  rcases h.whole with hzero | ⟨hne, hhead⟩
  · rw [hzero]
    rfl
  · have hspan := span_digits h.digits hrest
    have hdigits := h.digits
    cases hw : n.whole with
    | nil => exact absurd hw hne
    | cons c digits =>
      rw [hw] at hspan hhead hdigits
      rw [List.cons_append, scanWhole, if_neg fun hc => hhead (by rw [hc]; rfl),
        if_pos (hdigits c List.mem_cons_self)]
      exact congrArg some hspan

/-- The fraction ends where its digits do. -/
lemma scanFraction_append {digits : List Char} (hdigits : ∀ c ∈ digits, c.isDigit = true)
    (hrest : ∀ c ∈ rest.head?, c.isDigit = false ∧ c ≠ '.') :
    scanFraction ((if digits = [] then [] else '.' :: digits) ++ rest) = (digits, rest) := by
  by_cases hne : digits = []
  · rw [if_pos hne, hne, List.nil_append]
    cases rest with
    | nil => rfl
    | cons c rest => rw [scanFraction, if_neg fun hc => (hrest c rfl).2 hc.1]
  · have hspan := span_digits hdigits fun c hc => (hrest c hc).1
    rw [if_neg hne, List.cons_append, scanFraction, hspan, if_pos ⟨rfl, hne⟩]

/-- The exponent ends where the number does. -/
lemma scanExponent_append {n : Number} (h : n.WellFormed) (hrest : Delimited rest) :
    scanExponent (n.exponent ++ rest) = (n.exponent, rest) := by
  rcases h.exponent with hnone | ⟨e, sign, digits, heq, he, hsign, hne, hdigits⟩
  · rw [hnone, List.nil_append]
    cases rest with
    | nil => rfl
    | cons c rest =>
      obtain ⟨-, -, hlower, hupper⟩ := hrest c rfl
      rw [scanExponent]
      simp only [hlower, hupper, or_self, false_and, if_false]
  · have hscan : scanSign (sign ++ (digits ++ rest)) = (sign, digits ++ rest) := by
      rcases hsign with rfl | rfl | rfl
      · cases digits with
        | nil => exact absurd rfl hne
        | cons c digits =>
          have hc : ¬ (c = '-' ∨ c = '+') := by
            have hdigit := hdigits c List.mem_cons_self
            rintro (rfl | rfl) <;> exact absurd hdigit (by decide)
          rw [List.nil_append, List.cons_append, scanSign, if_neg hc]
      · rfl
      · rfl
    have hspan := span_digits hdigits fun c hc => (hrest c hc).1
    rw [heq, List.cons_append, List.append_assoc, scanExponent, hscan]
    simp only [hspan, if_pos (And.intro he hne)]

/-- A number is read up to its end. -/
lemma scanNumber_append {n : Number} (h : n.WellFormed) (hrest : Delimited rest) :
    scanNumber (n.text ++ rest) = some (n, rest) := by
  -- what follows the whole part, and what follows the fraction
  have hexponent : ∀ c ∈ (n.exponent ++ rest).head?, c.isDigit = false ∧ c ≠ '.' := by
    rcases h.exponent with hnone | ⟨e, sign, digits, heq, he, -⟩
    · rw [hnone]
      exact fun c hc => ⟨(hrest c hc).1, (hrest c hc).2.1⟩
    · rw [heq]
      exact forall_head_cons (by rcases he with rfl | rfl <;> decide) _
  have hfraction : ∀ c ∈ ((if n.fraction = [] then [] else '.' :: n.fraction) ++
      (n.exponent ++ rest)).head?, c.isDigit = false := by
    by_cases hne : n.fraction = []
    · rw [if_pos hne]
      exact fun c hc => (hexponent c hc).1
    · rw [if_neg hne]
      exact forall_head_cons (by decide) _
  have hwhole := scanWhole_append h hfraction
  have hscanned : ∀ text : List Char, decide (text.head? = some '-') = n.negative →
      (if text.head? = some '-' then text.tail else text) = n.whole ++
        ((if n.fraction = [] then [] else '.' :: n.fraction) ++ (n.exponent ++ rest)) →
      scanNumber text = some (n, rest) := by
    intro text hneg htext
    unfold scanNumber
    simp only [hneg, htext, hwhole, Option.bind_eq_bind, Option.bind_some,
      scanFraction_append h.fraction hexponent, scanExponent_append h hrest]
    rfl
  unfold Number.text
  cases hneg : n.negative with
  | true =>
    rw [hneg] at hscanned
    refine hscanned _ rfl ?_
    simp only [if_true, List.append_assoc, List.cons_append, List.nil_append, List.head?_cons,
      List.tail_cons]
  | false =>
    have hhead : (n.whole ++ ((if n.fraction = [] then [] else '.' :: n.fraction) ++
        (n.exponent ++ rest))).head? ≠ some '-' := by
      cases hw : n.whole with
      | nil => rcases h.whole with hzero | ⟨hne, -⟩ <;> simp_all
      | cons c digits =>
        have hdigit := h.digits c (by rw [hw]; exact List.mem_cons_self)
        intro hc
        obtain rfl : c = '-' := by simpa using hc
        exact absurd hdigit (by decide)
    rw [hneg] at hscanned
    simp only [Bool.false_eq_true, if_false, List.nil_append, List.append_assoc]
    exact hscanned _ (decide_eq_false hhead) (if_neg hhead)

/-- Digits have no zero in front. -/
lemma head_toDigits (h : 0 < n) : (Nat.toDigits 10 n).head? ≠ some '0' := by
  induction n using Nat.strong_induction_on with
  | _ n ih =>
    by_cases hlt : n < 10
    · have hall : ∀ n < 10, 0 < n → Nat.digitChar n ≠ '0' := by decide
      rw [Nat.toDigits_of_lt_base hlt]
      exact fun hhead => hall n hlt h (Option.some.inj hhead)
    · rw [Nat.toDigits_of_base_le (by decide) (by omega),
        List.head?_append_of_ne_nil _ Nat.toDigits_ne_nil]
      exact ih (n / 10) (by omega) (by omega)

/-- The digits of an integer. -/
def decimal (z : ℤ) : Number := ⟨decide (z < 0), Nat.toDigits 10 z.natAbs, [], []⟩

lemma intText_eq (z : ℤ) : intText z = (decimal z).text := by
  cases z with
  | ofNat n =>
    show Nat.toDigits 10 n = _
    simp [decimal, Number.text]
  | negSucc n =>
    show '-' :: Nat.toDigits 10 (n + 1) = _
    simp [decimal, Number.text, Int.negSucc_lt_zero]

/-- The decimal form of an integer is a number. -/
lemma wellFormed_decimal (z : ℤ) : (decimal z).WellFormed where
  whole := by
    by_cases hzero : z.natAbs = 0
    · exact .inl (congrArg (Nat.toDigits 10) hzero)
    · exact .inr ⟨Nat.toDigits_ne_nil, head_toDigits (by omega)⟩
  digits := fun _ hc => Nat.isDigit_of_mem_toDigits (by decide) (by decide) hc
  fraction := fun _ hc => absurd hc List.not_mem_nil
  exponent := .inl rfl

/-- An integer is read as itself. -/
lemma value_decimal (J : FloatFormat F) (z : ℤ) : (decimal z).value J = .int z := by
  unfold Number.value decimal
  simp only [and_self, if_true, Nat.ofDigitChars_ten_toDigits]
  congr 1
  by_cases hneg : z < 0
  · rw [decide_eq_true hneg, if_pos rfl]
    omega
  · rw [decide_eq_false hneg, if_neg Bool.false_ne_true]
    omega

/-! ## Values -/

variable (J : FloatFormat F)

/-- A float that reads back: it is written as a number with a fraction or an exponent, or as one of
the constants. -/
inductive Reads (x : F) : Prop where
  | number (n : Number) (hn : n.WellFormed) (hfloat : ¬ (n.fraction = [] ∧ n.exponent = []))
      (hrepr : J.repr x = n.text) (hread : J.read n.text = x)
  | constant (hword : (J.repr x, .float x) ∈ literals J)

/-- The values that JSON keeps. -/
inductive Plain : Json F → Prop where
  | null : Plain .null
  | bool (b : Bool) : Plain (.bool b)
  | int (z : ℤ) : Plain (.int z)
  | float {x : F} (h : Reads J x) : Plain (.float x)
  | str {s : List ℕ} (h : IsText s) : Plain (.str s)
  | arr {items : List (Json F)} (h : ∀ item ∈ items, Plain item) : Plain (.arr items)
  | obj {fields : List (List ℕ × Json F)} (hnodup : (fields.map Prod.fst).Nodup)
      (hkeys : ∀ field ∈ fields, IsText field.1) (h : ∀ field ∈ fields, Plain field.2) :
      Plain (.obj fields)

variable {J} {v : Json F} {indent : Option ℕ} {space : List Char}

/-- A literal reads as its value. -/
lemma scanLiteral_append {word : List Char} (h : (word, v) ∈ literals J) (rest : List Char) :
    scanLiteral J (word ++ rest) = some (v, rest) := by
  simp only [literals, List.mem_cons, Prod.mk.injEq, List.not_mem_nil, or_false] at h
  rcases h with ⟨rfl, rfl⟩ | ⟨rfl, rfl⟩ | ⟨rfl, rfl⟩ | ⟨rfl, rfl⟩ | ⟨rfl, rfl⟩ | ⟨rfl, rfl⟩ <;>
    simp [scanLiteral, literals, List.dropPrefix?]

/-- A number starts with a digit, behind its sign if it has one. -/
lemma Number.WellFormed.text_cases {n : Number} (h : n.WellFormed) :
    ∃ c tail, c.isDigit = true ∧ (n.text = c :: tail ∨ n.text = '-' :: c :: tail) := by
  have hne : n.whole ≠ [] := by
    rcases h.whole with hzero | hne
    · exact ne_of_eq_of_ne hzero (List.cons_ne_nil _ _)
    · exact hne.1
  cases hw : n.whole with
  | nil => exact absurd hw hne
  | cons c digits =>
    have hc := h.digits c (by rw [hw]; exact List.mem_cons_self)
    have htext : n.text = (if n.negative then ['-'] else []) ++ c :: (digits ++
        (if n.fraction = [] then [] else '.' :: n.fraction) ++ n.exponent) := by
      simp [Number.text, hw]
    rw [htext]
    cases n.negative with
    | false => exact ⟨c, _, hc, .inl rfl⟩
    | true => exact ⟨c, _, hc, .inr rfl⟩

/-- No number begins as a literal. -/
lemma scanLiteral_number {n : Number} (h : n.WellFormed) (rest : List Char) :
    scanLiteral J (n.text ++ rest) = none := by
  obtain ⟨c, tail, hc, htext⟩ := h.text_cases
  have hne : ∀ d : Char, d.isDigit = false → (c == d) = false := by
    intro d hd
    rw [beq_eq_false_iff_ne]
    rintro rfl
    rw [hd] at hc
    cases hc
  -- no literal goes on with a digit
  rcases htext with htext | htext
  · simp [htext, scanLiteral, literals, List.dropPrefix?, hne]
  · simp [htext, scanLiteral, literals, List.dropPrefix?, hne]

/-- Layout is skipped. -/
lemma skipSpace_append (hspace : ∀ c ∈ space, isSpace c = true)
    (htext : ∀ c ∈ text.head?, isSpace c = false) : skipSpace (space ++ text) = text := by
  rw [skipSpace, List.dropWhile_append_of_pos hspace]
  cases text with
  | nil => rfl
  | cons c text => exact List.dropWhile_cons_of_neg (by rw [htext c rfl]; decide)

lemma isSpace_newline (indent : Option ℕ) (level : ℕ) :
    ∀ c ∈ newline indent level, isSpace c = true := by
  cases indent with
  | none => exact fun c hc => absurd hc List.not_mem_nil
  | some width =>
    intro c hc
    rcases List.mem_cons.mp hc with rfl | hc
    · decide
    · rw [(List.mem_replicate.mp hc).2]
      decide

/-- A value is written with a first character that is no layout and closes nothing. -/
lemma Plain.head (h : Plain J v) (indent : Option ℕ) (level : ℕ) :
    ∃ c tail, encode J indent level v = c :: tail ∧ isSpace c = false ∧ c ≠ ']' := by
  have hnumber : ∀ n : Number, n.WellFormed →
      ∃ c tail, n.text = c :: tail ∧ isSpace c = false ∧ c ≠ ']' := by
    intro n hn
    obtain ⟨c, tail, hc, htext | htext⟩ := hn.text_cases
    · refine ⟨c, tail, htext, ?_, ?_⟩
      · rw [isSpace, decide_eq_false_iff_not]
        intro hmem
        simp only [List.mem_cons, List.not_mem_nil, or_false] at hmem
        rcases hmem with rfl | rfl | rfl | rfl <;> exact absurd hc (by decide)
      · rintro rfl
        exact absurd hc (by decide)
    · exact ⟨'-', _, htext, by decide, by decide⟩
  cases h with
  | null => exact ⟨_, _, rfl, by decide, by decide⟩
  | bool b => cases b <;> exact ⟨_, _, rfl, by decide, by decide⟩
  | int z =>
    rw [encode, intText_eq]
    exact hnumber _ (wellFormed_decimal z)
  | float h =>
    rw [encode]
    cases h with
    | number n hn _ hrepr _ =>
      rw [hrepr]
      exact hnumber n hn
    | constant hword =>
      simp only [literals, List.mem_cons, Prod.mk.injEq, List.not_mem_nil, or_false] at hword
      rcases hword with ⟨hw, -⟩ | ⟨hw, -⟩ | ⟨hw, -⟩ | ⟨hw, -⟩ | ⟨hw, -⟩ | ⟨hw, -⟩ <;>
        exact ⟨_, _, hw, by decide, by decide⟩
  | str _ => exact ⟨_, _, by rw [encode]; rfl, by decide, by decide⟩
  | @arr items _ => cases items <;> exact ⟨_, _, by rw [encode], by decide, by decide⟩
  | @obj fields _ _ _ =>
    rcases fields with _ | ⟨⟨key, value⟩, fields⟩ <;>
      exact ⟨_, _, by rw [encode], by decide, by decide⟩

/-- What is encoded does not begin with white space. -/
lemma Plain.notSpace (h : Plain J v) (indent : Option ℕ) (level : ℕ) (text : List Char) :
    ∀ c ∈ (encode J indent level v ++ text).head?, isSpace c = false := by
  obtain ⟨c, tail, hencode, hc, -⟩ := h.head indent level
  rw [hencode]
  exact forall_head_cons hc (tail ++ text)

/-- Behind a value, up to what closes its container, nothing belongs to a number. -/
lemma delimited_close {close : Char} (rest : List Char)
    (hspace : ∀ c ∈ space, isSpace c = true) (hclose : close = ']' ∨ close = '\x7d') :
    Delimited (space ++ close :: rest) := by
  cases space with
  | nil => exact forall_head_cons (by rcases hclose with rfl | rfl <;> decide) rest
  | cons first space =>
    refine forall_head_cons ?_ (space ++ close :: rest)
    have hmem := hspace first List.mem_cons_self
    simp only [isSpace, List.mem_cons, List.not_mem_nil, or_false, decide_eq_true_eq] at hmem
    rcases hmem with rfl | rfl | rfl | rfl <;> decide

/-- `scan_once` reads `v` back from its text at any level of the layout, where it has the fuel for
it and what follows is no part of a number. -/
def ReadsBack (J : FloatFormat F) (indent : Option ℕ) (v : Json F) : Prop :=
  ∀ level fuel rest, (encode J indent level v).length ≤ fuel → Delimited rest →
    scanValue J fuel (encode J indent level v ++ rest) = some (v, rest)

/-- The closing bracket ends the items. -/
lemma scanNext_close {close : Char} (hspace : ∀ c ∈ space, isSpace c = true)
    (hclose : close = ']' ∨ close = '\x7d') :
    scanNext close (space ++ close :: rest) = some (false, rest) := by
  have hskip : skipSpace (space ++ close :: rest) = close :: rest := by
    refine skipSpace_append hspace (forall_head_cons ?_ rest)
    rcases hclose with rfl | rfl <;> decide
  rw [scanNext, hskip]
  exact if_pos rfl

/-- A comma goes on to the next item. -/
lemma scanNext_separator {close : Char} (hclose : close = ']' ∨ close = '\x7d')
    (htext : ∀ c ∈ text.head?, isSpace c = false) :
    scanNext close (separator indent level ++ text) = some (true, text) := by
  have hne : ',' ≠ close := by rcases hclose with rfl | rfl <;> decide
  have hspace : ∀ c ∈ (if indent.isNone then [' '] else newline indent level),
      isSpace c = true := by
    split
    · exact List.forall_mem_singleton.mpr (by decide)
    · exact isSpace_newline indent level
  rw [scanNext, separator, List.cons_append, skipSpace, List.dropWhile_cons_of_neg (by decide)]
  show (if ',' = close then _ else _) = _
  rw [if_neg hne, if_pos rfl, skipSpace_append hspace htext]

/-- The items of an array are read. -/
lemma scanItems_encode {item : Json F} {items : List (Json F)} (level fuel : ℕ)
    (rest : List Char)
    (hplain : ∀ item' ∈ item :: items, Plain J item')
    (hreads : ∀ item' ∈ item :: items, ReadsBack J indent item')
    (hspace : ∀ c ∈ space, isSpace c = true)
    (hfuel : (encode J indent level item ++ encodeItems J indent level items).length < fuel) :
    scanItems J fuel (encode J indent level item ++ (encodeItems J indent level items ++
      (space ++ ']' :: rest))) = some (item :: items, rest) := by
  -- on the items that follow: a separator is longer than the step of fuel that it costs
  induction items generalizing item fuel with
  | nil =>
    obtain ⟨fuel, rfl⟩ : ∃ k, fuel = k + 1 := ⟨fuel - 1, by omega⟩
    have hvalue := hreads item List.mem_cons_self level fuel _ (by simp at hfuel; omega)
      (delimited_close rest hspace (.inl rfl))
    rw [encodeItems, List.nil_append, scanItems, hvalue]
    simp only [Option.bind_eq_bind, Option.bind_some, scanNext_close hspace (.inl rfl)]
    rfl
  | cons next items ih =>
    obtain ⟨fuel, rfl⟩ : ∃ k, fuel = k + 1 := ⟨fuel - 1, by omega⟩
    rw [encodeItems] at hfuel ⊢
    simp only [List.length_append, separator, List.length_cons] at hfuel
    have hdelimited : Delimited (separator indent level ++ (encode J indent level next ++
        (encodeItems J indent level items ++ (space ++ ']' :: rest)))) :=
      forall_head_cons (by decide) _
    have hvalue := hreads item List.mem_cons_self level fuel _ (by omega) hdelimited
    have hhead := (hplain next (List.mem_cons_of_mem _ List.mem_cons_self)).notSpace
      indent level (encodeItems J indent level items ++ (space ++ ']' :: rest))
    have hitems : scanItems J fuel (encode J indent level next ++ (encodeItems J indent level
        items ++ (space ++ ']' :: rest))) = some (next :: items, rest) := ih fuel
      (fun item' h => hplain item' (List.mem_cons_of_mem _ h))
      (fun item' h => hreads item' (List.mem_cons_of_mem _ h))
      (by simp only [List.length_append]; omega)
    simp only [List.append_assoc] at hvalue ⊢
    rw [scanItems, hvalue]
    simp only [Option.bind_eq_bind, Option.bind_some, scanNext_separator (.inl rfl) hhead, if_true,
      hitems]
    rfl

/-- A key reads up to its value. -/
lemma scanKey_quote {key : List ℕ} (hkey : IsText key)
    (htext : ∀ c ∈ text.head?, isSpace c = false) :
    scanKey (quote key ++ ([':', ' '] ++ text)) = some (key, text) := by
  have hscan := scanString_quote hkey (':' :: ' ' :: text)
  have hcolon : skipSpace (':' :: ' ' :: text) = ':' :: ' ' :: text :=
    List.dropWhile_cons_of_neg (by decide)
  have hskip : skipSpace (' ' :: text) = text := by
    show skipSpace ([' '] ++ text) = text
    exact skipSpace_append (List.forall_mem_singleton.mpr (by decide)) htext
  rw [quote, List.cons_append, List.append_assoc, scanKey]
  simp only [ne_eq, not_true_eq_false, if_false, Option.bind_eq_bind]
  show (scanString (key.flatMap escape ++ '"' :: ':' :: ' ' :: text)).bind _ = _
  simp only [hscan, Option.bind_some, hcolon, if_true, hskip]
  rfl

/-- The items of an object are read. -/
lemma scanFields_encode {key : List ℕ} {value : Json F} {fields : List (List ℕ × Json F)}
    (level fuel : ℕ) (rest : List Char)
    (hkeys : ∀ field ∈ (key, value) :: fields, IsText field.1)
    (hplain : ∀ field ∈ (key, value) :: fields, Plain J field.2)
    (hreads : ∀ field ∈ (key, value) :: fields, ReadsBack J indent field.2)
    (hspace : ∀ c ∈ space, isSpace c = true)
    (hfuel : (encode J indent level value ++ encodeFields J indent level fields).length < fuel) :
    scanFields J fuel (quote key ++ ([':', ' '] ++ (encode J indent level value ++
      (encodeFields J indent level fields ++ (space ++ '\x7d' :: rest))))) =
      some ((key, value) :: fields, rest) := by
  induction fields generalizing key value fuel with
  | nil =>
    obtain ⟨fuel, rfl⟩ : ∃ k, fuel = k + 1 := ⟨fuel - 1, by omega⟩
    have hfirst : ReadsBack J indent value := hreads _ List.mem_cons_self
    have hkey := fun text => scanKey_quote (hkeys _ List.mem_cons_self)
      ((hplain _ List.mem_cons_self).notSpace indent level text)
    have hvalue := hfirst level fuel _
      (by simp only [List.length_append] at hfuel; omega)
      (delimited_close rest hspace (.inr rfl))
    rw [encodeFields, List.nil_append, scanFields, hkey]
    simp only [Option.bind_eq_bind, Option.bind_some, hvalue, scanNext_close hspace (.inr rfl)]
    rfl
  | cons next fields ih =>
    obtain ⟨fuel, rfl⟩ : ∃ k, fuel = k + 1 := ⟨fuel - 1, by omega⟩
    obtain ⟨nextKey, nextValue⟩ := next
    rw [encodeFields] at hfuel ⊢
    simp only [List.length_append, separator, List.length_cons] at hfuel
    have hdelimited : Delimited (separator indent level ++ (quote nextKey ++ ([':', ' '] ++
        (encode J indent level nextValue ++ (encodeFields J indent level fields ++
          (space ++ '\x7d' :: rest)))))) := forall_head_cons (by decide) _
    have hfirst : ReadsBack J indent value := hreads _ List.mem_cons_self
    have hvalue := hfirst level fuel _ (by omega) hdelimited
    have hkey := fun text => scanKey_quote (hkeys _ List.mem_cons_self)
      ((hplain _ List.mem_cons_self).notSpace indent level text)
    have hnextHead : ∀ text, ∀ c ∈ (quote nextKey ++ text).head?, isSpace c = false :=
      fun text => forall_head_cons (by decide) _
    have hfields : scanFields J fuel (quote nextKey ++ ([':', ' '] ++ (encode J indent level
        nextValue ++ (encodeFields J indent level fields ++ (space ++ '\x7d' :: rest))))) =
        some ((nextKey, nextValue) :: fields, rest) := ih fuel
      (fun field h => hkeys field (List.mem_cons_of_mem _ h))
      (fun field h => hplain field (List.mem_cons_of_mem _ h))
      (fun field h => hreads field (List.mem_cons_of_mem _ h))
      (by simp only [List.length_append]; omega)
    simp only [List.append_assoc] at hvalue ⊢
    rw [scanFields, hkey]
    simp only [Option.bind_eq_bind, Option.bind_some, hvalue,
      scanNext_separator (.inr rfl) (hnextHead _), if_true, hfields]
    rfl

/-- What begins with no bracket and no quote is a literal or a number. -/
lemma scanValue_scalar {c : Char} (hquote : c ≠ '"') (hbracket : c ≠ '[') (hbrace : c ≠ '\x7b')
    (fuel : ℕ) (text : List Char) :
    scanValue J (fuel + 1) (c :: text) = (scanLiteral J (c :: text)).or
      ((scanNumber (c :: text)).map fun (n, rest) => (n.value J, rest)) := by
  rw [scanValue, if_neg hquote, if_neg hbracket, if_neg hbrace]

/-- A literal is a value. -/
lemma scanValue_literal {word : List Char} (h : (word, v) ∈ literals J) (fuel : ℕ)
    (rest : List Char) : scanValue J (fuel + 1) (word ++ rest) = some (v, rest) := by
  have hscan := scanLiteral_append h rest
  simp only [literals, List.mem_cons, Prod.mk.injEq, List.not_mem_nil, or_false] at h
  rcases h with ⟨rfl, rfl⟩ | ⟨rfl, rfl⟩ | ⟨rfl, rfl⟩ | ⟨rfl, rfl⟩ | ⟨rfl, rfl⟩ | ⟨rfl, rfl⟩ <;>
    · rw [List.cons_append] at hscan ⊢
      rw [scanValue_scalar (by decide) (by decide) (by decide), hscan, Option.some_or]

/-- A number is a value, where it ends. -/
lemma scanValue_number {n : Number} (h : n.WellFormed) (fuel : ℕ) (hrest : Delimited rest) :
    scanValue J (fuel + 1) (n.text ++ rest) = some (n.value J, rest) := by
  have hliteral := scanLiteral_number (J := J) h rest
  have hscan := scanNumber_append h hrest
  obtain ⟨c, tail, hc, htext | htext⟩ := h.text_cases
  · have hne : ∀ d : Char, d.isDigit = false → c ≠ d := by
      rintro d hd rfl
      rw [hd] at hc
      cases hc
    rw [htext, List.cons_append] at hliteral hscan ⊢
    rw [scanValue_scalar (hne _ rfl) (hne _ rfl) (hne _ rfl), hliteral, hscan]
    rfl
  · rw [htext, List.cons_append] at hliteral hscan ⊢
    rw [scanValue_scalar (by decide) (by decide) (by decide), hliteral, hscan]
    rfl

/-- A string is a value. -/
lemma scanValue_quote (h : IsText s) (fuel : ℕ) (rest : List Char) :
    scanValue J (fuel + 1) (quote s ++ rest) = some (.str s, rest) := by
  rw [quote, List.cons_append, List.append_assoc, scanValue, if_pos rfl]
  show (scanString (s.flatMap escape ++ '"' :: rest)).map _ = _
  rw [scanString_quote h]
  rfl

/-- An array is read from its items. -/
lemma scanValue_arr {items : List (Json F)} {inside : List Char}
    (hspace : ∀ c ∈ space, isSpace c = true)
    (hhead : ∀ c ∈ inside.head?, isSpace c = false ∧ c ≠ ']')
    (hscan : scanItems J fuel inside = some (items, rest)) :
    scanValue J (fuel + 1) ('[' :: (space ++ inside)) = some (.arr items, rest) := by
  have hskip := skipSpace_append hspace fun c hc => (hhead c hc).1
  have hne : inside.head? ≠ some ']' := fun hc => (hhead ']' hc).2 rfl
  rw [scanValue, if_neg (by decide), if_pos rfl]
  simp only [hskip, if_neg hne, hscan]
  rfl

/-- An object is read from its fields, which have different keys. -/
lemma scanValue_obj {fields : List (List ℕ × Json F)} {inside : List Char}
    (hspace : ∀ c ∈ space, isSpace c = true)
    (hhead : ∀ c ∈ inside.head?, isSpace c = false ∧ c ≠ '\x7d')
    (hscan : scanFields J fuel inside = some (fields, rest))
    (hnodup : (fields.map Prod.fst).Nodup) :
    scanValue J (fuel + 1) ('\x7b' :: (space ++ inside)) = some (.obj fields, rest) := by
  have hskip := skipSpace_append hspace fun c hc => (hhead c hc).1
  have hne : inside.head? ≠ some '\x7d' := fun hc => (hhead '\x7d' hc).2 rfl
  have hpairs : ofPairs fields = fields :=
    OrderedDict.entries_foldl_set .empty hnodup fun _ _ => List.not_mem_nil
  rw [scanValue, if_neg (by decide), if_neg (by decide), if_pos rfl]
  simp only [hskip, if_neg hne, hscan, Option.map_some, hpairs]

/-- There is fuel for the first step. -/
lemma Plain.readsBack_of (h : Plain J v) (hscan : ∀ level fuel rest,
    (encode J indent level v).length ≤ fuel + 1 → Delimited rest →
      scanValue J (fuel + 1) (encode J indent level v ++ rest) = some (v, rest)) :
    ReadsBack J indent v := by
  intro level fuel rest hfuel hrest
  cases fuel with
  | zero =>
    -- no value is written as nothing
    obtain ⟨c, tail, hencode, -⟩ := h.head indent level
    rw [hencode] at hfuel
    exact absurd hfuel (Nat.not_succ_le_zero _)
  | succ fuel => exact hscan level fuel rest hfuel hrest

/-- Every value that JSON keeps is read back. -/
lemma Plain.readsBack (h : Plain J v) (indent : Option ℕ) : ReadsBack J indent v := by
  -- on the derivation: the items of a container are read by the lemmas above
  induction h with
  | null =>
    refine Plain.null.readsBack_of fun level fuel rest _ _ => ?_
    exact scanValue_literal (by simp [literals, encode]) fuel rest
  | bool b =>
    refine (Plain.bool b).readsBack_of fun level fuel rest _ _ => ?_
    cases b <;> exact scanValue_literal (by simp [literals, encode]) fuel rest
  | int z =>
    refine (Plain.int z).readsBack_of fun level fuel rest _ hrest => ?_
    rw [encode, intText_eq, scanValue_number (wellFormed_decimal z) fuel hrest, value_decimal]
  | float h =>
    refine (Plain.float h).readsBack_of fun level fuel rest _ hrest => ?_
    rw [encode]
    cases h with
    | number n hn hfloat hrepr hread =>
      rw [hrepr, scanValue_number hn fuel hrest, Number.value, if_neg hfloat, hread]
    | constant hword => exact scanValue_literal hword fuel rest
  | str h =>
    refine (Plain.str h).readsBack_of fun level fuel rest _ _ => ?_
    rw [encode, scanValue_quote h]
  | @arr items hplain ih =>
    refine (Plain.arr hplain).readsBack_of fun level fuel rest hfuel _ => ?_
    cases items with
    | nil =>
      rw [encode, List.cons_append, scanValue, if_neg (by decide), if_pos rfl]
      rfl
    | cons item items =>
      rw [encode] at hfuel ⊢
      simp only [List.length_cons, List.length_append, List.length_nil] at hfuel
      have hscan := scanItems_encode (level + 1) fuel rest hplain ih (isSpace_newline indent level)
        (by simp only [List.length_append]; omega)
      simp only [List.cons_append, List.append_assoc]
      refine scanValue_arr (isSpace_newline indent (level + 1)) ?_ hscan
      obtain ⟨c, tail, hencode, hc, hne⟩ :=
        (hplain item List.mem_cons_self).head indent (level + 1)
      rw [hencode]
      exact forall_head_cons ⟨hc, hne⟩ _
  | @obj fields hnodup hkeys hplain ih =>
    refine (Plain.obj hnodup hkeys hplain).readsBack_of fun level fuel rest hfuel _ => ?_
    cases fields with
    | nil =>
      rw [encode, List.cons_append, scanValue, if_neg (by decide), if_neg (by decide), if_pos rfl]
      rfl
    | cons field fields =>
      obtain ⟨key, value⟩ := field
      rw [encode] at hfuel ⊢
      simp only [List.length_cons, List.length_append, List.length_nil] at hfuel
      have hscan := scanFields_encode (level + 1) fuel rest hkeys hplain ih
        (isSpace_newline indent level) (by simp only [List.length_append]; omega)
      simp only [List.cons_append, List.append_assoc] at hscan ⊢
      exact scanValue_obj (isSpace_newline indent (level + 1)) (forall_head_cons (by decide) _)
        hscan hnodup

/-- Reading inverts writing. -/
theorem loads_dumps (h : Plain J v) (indent : Option ℕ) :
    loads J (dumps J indent v) = some v := by
  have hskip : skipSpace (dumps J indent v) = dumps J indent v := by
    have hhead := h.notSpace indent 0 []
    rw [List.append_nil] at hhead
    show skipSpace ([] ++ dumps J indent v) = dumps J indent v
    exact skipSpace_append (fun c hc => absurd hc List.not_mem_nil) hhead
  have hread := h.readsBack indent 0 ((dumps J indent v).length + 1) [] (Nat.le_succ _)
    fun c hc => absurd hc (Option.not_mem_none c)
  -- nothing is left behind the value
  rw [List.append_nil] at hread
  rw [loads, hskip]
  show (scanValue J _ (encode J indent 0 v)).bind _ = _
  rw [hread]
  rfl

end Json

end Chatbit.Lib
