import Chatbit.Bytes

/-!
# UTF-8

`decodeUtf8` reads back what the encoder writes, and a character whose encoding is cut short becomes
one replacement character. A string whose encoding is cut after so many octets is therefore read
back as the characters that fit (`fitting`), and a replacement character if the cut is inside one.
-/

namespace Chatbit

variable {β : Type} [Alphabet β] {n b0 b1 b2 b3 : ℕ} {rest : List UInt8}

/-! ## Octets -/

lemma toNat_octet (h : n < 256) : (UInt8.ofNat n).toNat = n := by
  rw [UInt8.toNat_ofNat', Nat.mod_eq_of_lt h]

lemma octet_lt {m : UInt8} (h : n < 256) : UInt8.ofNat n < m ↔ n < m.toNat := by
  rw [UInt8.lt_iff_toNat_lt, toNat_octet h]

lemma octet_eq {m : UInt8} (h : n < 256) : UInt8.ofNat n = m ↔ n = m.toNat := by
  rw [← UInt8.toNat_inj, toNat_octet h]

/-- A range of octets is one of numbers. -/
lemma inRange_octet {lo hi : UInt8} (h : n < 256) :
    inRange lo hi (UInt8.ofNat n) = true ↔ lo.toNat ≤ n ∧ n ≤ hi.toNat := by
  rw [inRange, Bool.and_eq_true, decide_eq_true_eq, decide_eq_true_eq, UInt8.le_iff_toNat_le,
    UInt8.le_iff_toNat_le, toNat_octet h]

/-- A continuation octet. -/
def IsTail (b : ℕ) : Prop := 0x80 ≤ b ∧ b ≤ 0xBF

/-- A continuation octet is in the range that the decoder asks for. -/
lemma IsTail.inRange (h : IsTail b1) : inRange 0x80 0xBF (UInt8.ofNat b1) = true :=
  (inRange_octet (by unfold IsTail at h; omega)).mpr h

/-- What may follow the first octet of three: no overlong form and no surrogate. -/
def Follows3 (b0 b1 : ℕ) : Prop :=
  IsTail b1 ∧ (b0 = 0xE0 → 0xA0 ≤ b1) ∧ (b0 = 0xED → b1 ≤ 0x9F)

/-- What may follow the first octet of four: no overlong form and nothing above U+10FFFF. -/
def Follows4 (b0 b1 : ℕ) : Prop :=
  IsTail b1 ∧ (b0 = 0xF0 → 0x90 ≤ b1) ∧ (b0 = 0xF4 → b1 ≤ 0x8F)

/-- A second octet is in its range where the first narrows the range on one side. -/
lemma inRange_of_tail {eLow low eHigh high : UInt8} (h0 : b0 < 256) (h1 : IsTail b1)
    (hlow : b0 = eLow.toNat → low.toNat ≤ b1) (hhigh : b0 = eHigh.toNat → b1 ≤ high.toNat) :
    inRange (if UInt8.ofNat b0 = eLow then low else 0x80)
      (if UInt8.ofNat b0 = eHigh then high else 0xBF) (UInt8.ofNat b1) = true := by
  obtain ⟨hge, hle⟩ := h1
  rw [inRange_octet (by omega)]
  constructor
  · split_ifs with heq
    · exact hlow ((octet_eq h0).mp heq)
    · exact hge
  · split_ifs with heq
    · exact hhigh ((octet_eq h0).mp heq)
    · exact hle

/-- The second octet of three is in the range that its first leaves it. -/
lemma Follows3.inRange (h0 : b0 < 256) (h : Follows3 b0 b1) :
    inRange (if UInt8.ofNat b0 = 0xE0 then 0xA0 else 0x80)
      (if UInt8.ofNat b0 = 0xED then 0x9F else 0xBF) (UInt8.ofNat b1) = true :=
  inRange_of_tail h0 h.1 h.2.1 h.2.2

/-- So is the second octet of four. -/
lemma Follows4.inRange (h0 : b0 < 256) (h : Follows4 b0 b1) :
    inRange (if UInt8.ofNat b0 = 0xF0 then 0x90 else 0x80)
      (if UInt8.ofNat b0 = 0xF4 then 0x8F else 0xBF) (UInt8.ofNat b1) = true :=
  inRange_of_tail h0 h.1 h.2.1 h.2.2

/-! ## The decoder at a first octet -/

/-- An ASCII octet is a character. -/
lemma decodeUtf8_one (h : b0 < 0x80) :
    decodeUtf8 (UInt8.ofNat b0 :: rest) = Char.ofNat b0 :: decodeUtf8 rest := by
  have hlt : UInt8.ofNat b0 < 0x80 := (octet_lt (by omega)).mpr h
  rw [decodeUtf8.eq_def]
  simp only
  rw [if_pos hlt, toNat_octet (by omega)]

lemma not_ascii (h : b0 < 256) (hge : 0x80 ≤ b0) : ¬ UInt8.ofNat b0 < 0x80 :=
  mt (octet_lt h).mp (Nat.not_lt.mpr hge)

/-- An octet above a range is not in it. -/
lemma not_inRange {lo hi : UInt8} (h : b0 < 256) (hgt : hi.toNat < b0) :
    ¬ inRange lo hi (UInt8.ofNat b0) = true := fun hin =>
  absurd ((inRange_octet h).mp hin).2 (Nat.not_le.mpr hgt)

section TwoOctets

variable (h0 : 0xC2 ≤ b0 ∧ b0 ≤ 0xDF)
include h0

/-- The branch of the decoder for the first octet of two. -/
lemma decodeUtf8_of_two (t : List UInt8) :
    decodeUtf8 (UInt8.ofNat b0 :: t) =
      match t with
      | [] => [replacementChar]
      | b1 :: t1 =>
        if inRange 0x80 0xBF b1 then
          charOf ((UInt8.ofNat b0).toNat - 0xC0) [b1] :: decodeUtf8 t1
        else replacementChar :: decodeUtf8 (b1 :: t1) := by
  have hin : inRange 0xC2 0xDF (UInt8.ofNat b0) = true := (inRange_octet (by omega)).mpr h0
  conv_lhs => rw [decodeUtf8.eq_def]
  simp only
  rewrite [if_neg (not_ascii (by omega) (by omega)), if_pos hin]
  cases t <;> rfl

/-- Two octets that belong together are a character. -/
lemma decodeUtf8_two (h1 : IsTail b1) :
    decodeUtf8 (UInt8.ofNat b0 :: UInt8.ofNat b1 :: rest) =
      charOf (b0 - 0xC0) [UInt8.ofNat b1] :: decodeUtf8 rest := by
  rw [decodeUtf8_of_two h0]
  simp only
  rw [if_pos h1.inRange, toNat_octet (by omega)]

end TwoOctets

section ThreeOctets

variable (h0 : 0xE0 ≤ b0 ∧ b0 ≤ 0xEF)
include h0

/-- The branch for the first octet of three. -/
lemma decodeUtf8_of_three (t : List UInt8) :
    decodeUtf8 (UInt8.ofNat b0 :: t) =
      match t with
      | [] => [replacementChar]
      | b1 :: t1 =>
        if inRange (if UInt8.ofNat b0 = 0xE0 then 0xA0 else 0x80)
            (if UInt8.ofNat b0 = 0xED then 0x9F else 0xBF) b1 then
          match t1 with
          | [] => [replacementChar]
          | b2 :: t2 =>
            if inRange 0x80 0xBF b2 then
              charOf ((UInt8.ofNat b0).toNat - 0xE0) [b1, b2] :: decodeUtf8 t2
            else replacementChar :: decodeUtf8 (b2 :: t2)
        else replacementChar :: decodeUtf8 (b1 :: t1) := by
  have hin : inRange 0xE0 0xEF (UInt8.ofNat b0) = true := (inRange_octet (by omega)).mpr h0
  have hne : ¬ inRange 0xC2 0xDF (UInt8.ofNat b0) = true :=
    not_inRange (by omega) (Nat.lt_of_lt_of_le (by decide) h0.1)
  conv_lhs => rw [decodeUtf8.eq_def]
  simp only
  rewrite [if_neg (not_ascii (by omega) (by omega)), if_neg hne, if_pos hin]
  rcases t with _ | ⟨b1, _ | ⟨b2, t⟩⟩ <;> rfl

/-- Three octets that belong together are a character. -/
lemma decodeUtf8_three (h1 : Follows3 b0 b1) (h2 : IsTail b2) :
    decodeUtf8 (UInt8.ofNat b0 :: UInt8.ofNat b1 :: UInt8.ofNat b2 :: rest) =
      charOf (b0 - 0xE0) [UInt8.ofNat b1, UInt8.ofNat b2] :: decodeUtf8 rest := by
  rw [decodeUtf8_of_three h0]
  simp only
  rw [if_pos (h1.inRange (by omega)), if_pos h2.inRange, toNat_octet (by omega)]

/-- If the third is missing, the two others are one replacement character. -/
lemma decodeUtf8_three_cut (h1 : Follows3 b0 b1) :
    decodeUtf8 [UInt8.ofNat b0, UInt8.ofNat b1] = [replacementChar] := by
  rw [decodeUtf8_of_three h0]
  simp only
  rw [if_pos (h1.inRange (by omega))]

end ThreeOctets

section FourOctets

variable (h0 : 0xF0 ≤ b0 ∧ b0 ≤ 0xF4)
include h0

/-- The branch for the first octet of four. -/
lemma decodeUtf8_of_four (t : List UInt8) :
    decodeUtf8 (UInt8.ofNat b0 :: t) =
      match t with
      | [] => [replacementChar]
      | b1 :: t1 =>
        if inRange (if UInt8.ofNat b0 = 0xF0 then 0x90 else 0x80)
            (if UInt8.ofNat b0 = 0xF4 then 0x8F else 0xBF) b1 then
          match t1 with
          | [] => [replacementChar]
          | b2 :: t2 =>
            if inRange 0x80 0xBF b2 then
              match t2 with
              | [] => [replacementChar]
              | b3 :: t3 =>
                if inRange 0x80 0xBF b3 then
                  charOf ((UInt8.ofNat b0).toNat - 0xF0) [b1, b2, b3] :: decodeUtf8 t3
                else replacementChar :: decodeUtf8 (b3 :: t3)
            else replacementChar :: decodeUtf8 (b2 :: t2)
        else replacementChar :: decodeUtf8 (b1 :: t1) := by
  have hin : inRange 0xF0 0xF4 (UInt8.ofNat b0) = true := (inRange_octet (by omega)).mpr h0
  have hne2 : ¬ inRange 0xC2 0xDF (UInt8.ofNat b0) = true :=
    not_inRange (by omega) (Nat.lt_of_lt_of_le (by decide) h0.1)
  have hne3 : ¬ inRange 0xE0 0xEF (UInt8.ofNat b0) = true :=
    not_inRange (by omega) (Nat.lt_of_lt_of_le (by decide) h0.1)
  conv_lhs => rw [decodeUtf8.eq_def]
  simp only
  rewrite [if_neg (not_ascii (by omega) (by omega)), if_neg hne2, if_neg hne3, if_pos hin]
  rcases t with _ | ⟨b1, _ | ⟨b2, _ | ⟨b3, t⟩⟩⟩ <;> rfl

/-- Four octets that belong together are a character. -/
lemma decodeUtf8_four (h1 : Follows4 b0 b1) (h2 : IsTail b2) (h3 : IsTail b3) :
    decodeUtf8 (UInt8.ofNat b0 :: UInt8.ofNat b1 :: UInt8.ofNat b2 :: UInt8.ofNat b3 :: rest) =
      charOf (b0 - 0xF0) [UInt8.ofNat b1, UInt8.ofNat b2, UInt8.ofNat b3] :: decodeUtf8 rest := by
  rw [decodeUtf8_of_four h0]
  simp only
  rw [if_pos (h1.inRange (by omega)), if_pos h2.inRange, if_pos h3.inRange,
    toNat_octet (by omega)]

/-- If two octets of four are missing, the others are one replacement character. -/
lemma decodeUtf8_four_cut₂ (h1 : Follows4 b0 b1) :
    decodeUtf8 [UInt8.ofNat b0, UInt8.ofNat b1] = [replacementChar] := by
  rw [decodeUtf8_of_four h0]
  simp only
  rw [if_pos (h1.inRange (by omega))]

/-- If one octet of four is missing, the others are one replacement character, too. -/
lemma decodeUtf8_four_cut₃ (h1 : Follows4 b0 b1) (h2 : IsTail b2) :
    decodeUtf8 [UInt8.ofNat b0, UInt8.ofNat b1, UInt8.ofNat b2] = [replacementChar] := by
  rw [decodeUtf8_of_four h0]
  simp only
  rw [if_pos (h1.inRange (by omega)), if_pos h2.inRange]

end FourOctets

/-! ## The encoder -/

/-- A character is its code point. -/
lemma charOfNat_eq {c : Char} (h : n = c.val.toNat) : Char.ofNat n = c := by
  rw [h]
  exact Char.ofNat_toNat c

/-- A character is no surrogate. -/
lemma codePoint_valid (c : Char) :
    c.val.toNat < 0xD800 ∨ 0xDFFF < c.val.toNat ∧ c.val.toNat < 0x110000 := c.valid

/-- What the encoder writes for a character is read as that character. -/
lemma decodeUtf8_encodeChar (c : Char) (rest : List UInt8) :
    decodeUtf8 (String.utf8EncodeChar c ++ rest) = c :: decodeUtf8 rest := by
  have hvalid := codePoint_valid c
  fun_cases String.utf8EncodeChar c with
  | case1 v hv =>
    rw [List.singleton_append, decodeUtf8_one (by omega), charOfNat_eq rfl]
  | case2 v hv1 hv2 =>
    have hchar : charOf ((v / 64 % 0x20 + 0xC0) - 0xC0) [UInt8.ofNat (v % 0x40 + 0x80)] = c := by
      refine charOfNat_eq ?_
      simp only [List.foldl_cons, List.foldl_nil]
      rw [toNat_octet (by omega)]
      omega
    rw [List.cons_append, List.cons_append, List.nil_append,
      decodeUtf8_two (by omega) (by unfold IsTail; omega), hchar]
  | case3 v hv1 hv2 hv3 =>
    have hchar : charOf ((v / 4096 % 0x10 + 0xE0) - 0xE0)
        [UInt8.ofNat (v / 64 % 0x40 + 0x80), UInt8.ofNat (v % 0x40 + 0x80)] = c := by
      refine charOfNat_eq ?_
      simp only [List.foldl_cons, List.foldl_nil]
      rw [toNat_octet (by omega), toNat_octet (by omega)]
      omega
    rw [List.cons_append, List.cons_append, List.cons_append, List.nil_append,
      decodeUtf8_three (by omega) (by unfold Follows3 IsTail; omega) (by unfold IsTail; omega),
      hchar]
  | case4 v hv1 hv2 hv3 =>
    have hchar : charOf ((v / 262144 % 0x08 + 0xF0) - 0xF0)
        [UInt8.ofNat (v / 4096 % 0x40 + 0x80), UInt8.ofNat (v / 64 % 0x40 + 0x80),
          UInt8.ofNat (v % 0x40 + 0x80)] = c := by
      refine charOfNat_eq ?_
      simp only [List.foldl_cons, List.foldl_nil]
      rw [toNat_octet (by omega), toNat_octet (by omega), toNat_octet (by omega)]
      omega
    rw [List.cons_append, List.cons_append, List.cons_append, List.cons_append, List.nil_append,
      decodeUtf8_four (by omega) (by unfold Follows4 IsTail; omega) (by unfold IsTail; omega)
        (by unfold IsTail; omega), hchar]

/-- A character that is cut short is read as a replacement character. -/
lemma decodeUtf8_take_encodeChar {c : Char} (hpos : 0 < n) (hlt : n < c.utf8Size) :
    decodeUtf8 ((String.utf8EncodeChar c).take n) = [replacementChar] := by
  have hvalid := codePoint_valid c
  rw [← String.length_utf8EncodeChar] at hlt
  revert hlt
  fun_cases String.utf8EncodeChar c with
  | case1 v hv =>
    intro hlt
    rw [List.length_singleton] at hlt
    omega
  | case2 v hv1 hv2 =>
    intro hlt
    simp only [List.length_cons, List.length_nil] at hlt
    obtain rfl : n = 1 := by omega
    exact decodeUtf8_of_two (by omega) []
  | case3 v hv1 hv2 hv3 =>
    intro hlt
    simp only [List.length_cons, List.length_nil] at hlt
    obtain rfl | rfl : n = 1 ∨ n = 2 := by omega
    · exact decodeUtf8_of_three (by omega) []
    · exact decodeUtf8_three_cut (by omega) (by unfold Follows3 IsTail; omega)
  | case4 v hv1 hv2 hv3 =>
    intro hlt
    simp only [List.length_cons, List.length_nil] at hlt
    obtain rfl | rfl | rfl : n = 1 ∨ n = 2 ∨ n = 3 := by omega
    · exact decodeUtf8_of_four (by omega) []
    · exact decodeUtf8_four_cut₂ (by omega) (by unfold Follows4 IsTail; omega)
    · exact decodeUtf8_four_cut₃ (by omega) (by unfold Follows4 IsTail; omega)
        (by unfold IsTail; omega)

/-! ## A string that is cut -/

/-- The number of octets of a text. -/
def utf8Length (chars : List Char) : ℕ := (chars.map Char.utf8Size).sum

@[simp] lemma utf8Length_cons (c : Char) (chars : List Char) :
    utf8Length (c :: chars) = c.utf8Size + utf8Length chars := by simp [utf8Length]

/-- A text is encoded character by character. -/
lemma encodeUtf8_eq (s : String) :
    (encodeUtf8 s : Bytes β) = (s.toList.flatMap String.utf8EncodeChar).map ofOctet := by
  have hbytes : s.toByteArray = (s.toList.flatMap String.utf8EncodeChar).toByteArray := by
    rw [← String.ofList_toList (s := s), String.toByteArray_ofList, String.toList_ofList]
    rfl
  rw [encodeUtf8, String.toUTF8_eq_toByteArray, hbytes, List.data_toByteArray]

/-- The characters from the start of a text that fit into so many octets. -/
def fitting : ℕ → List Char → List Char
  | _, [] => []
  | n, c :: chars => if c.utf8Size ≤ n then c :: fitting (n - c.utf8Size) chars else []

/-- After so many octets the text has ended, or a character has. -/
def CutsBetween (n : ℕ) (chars : List Char) : Prop :=
  utf8Length chars ≤ n ∨ ∃ p, p <+: chars ∧ utf8Length p = n

/-- The longest text that `chars` begins with and that fits into `n` octets. -/
def IsLongestFitting (n : ℕ) (chars p : List Char) : Prop :=
  (p <+: chars ∧ utf8Length p ≤ n) ∧ ∀ q, q <+: chars → utf8Length q ≤ n → q <+: p

lemma cutsBetween_nil (n : ℕ) : CutsBetween n [] := Or.inl (Nat.zero_le n)

/-- A cut behind the first character is a cut of the rest. -/
lemma cutsBetween_cons_of_le {c : Char} {chars : List Char} (h : c.utf8Size ≤ n) :
    CutsBetween n (c :: chars) ↔ CutsBetween (n - c.utf8Size) chars := by
  have hpos := c.utf8Size_pos
  refine or_congr (by rw [utf8Length_cons]; omega) ⟨?_, ?_⟩
  · rintro ⟨p, hp, hlen⟩
    cases p with
    | nil =>
      change 0 = n at hlen
      omega
    | cons c' p =>
      obtain ⟨rfl, hrest⟩ := List.cons_prefix_cons.mp hp
      rw [utf8Length_cons] at hlen
      exact ⟨p, hrest, by omega⟩
  · rintro ⟨p, hp, hlen⟩
    refine ⟨c :: p, List.cons_prefix_cons.mpr ⟨rfl, hp⟩, ?_⟩
    rw [utf8Length_cons]
    omega

/-- A cut within the first character is between characters at its start only. -/
lemma cutsBetween_cons_of_lt {c : Char} {chars : List Char} (h : n < c.utf8Size) :
    CutsBetween n (c :: chars) ↔ n = 0 := by
  constructor
  · rintro (hle | ⟨p, hp, hlen⟩)
    · rw [utf8Length_cons] at hle
      omega
    · cases p with
      | nil => exact hlen.symm
      | cons c' p =>
        obtain ⟨rfl, -⟩ := List.cons_prefix_cons.mp hp
        rw [utf8Length_cons] at hlen
        omega
  · rintro rfl
    exact Or.inr ⟨[], List.nil_prefix, rfl⟩

instance decidableCutsBetween : ∀ (n : ℕ) (chars : List Char), Decidable (CutsBetween n chars)
  | n, [] => isTrue (cutsBetween_nil n)
  | n, c :: chars =>
    have := decidableCutsBetween (n - c.utf8Size) chars
    if h : c.utf8Size ≤ n then decidable_of_iff _ (cutsBetween_cons_of_le h).symm
    else decidable_of_iff (n = 0) (cutsBetween_cons_of_lt (Nat.not_le.mp h)).symm

/-- The octets up to a cut are read as the characters that fit, and a replacement character if the
cut is inside one. -/
lemma decodeUtf8_take (n : ℕ) (chars : List Char) :
    (CutsBetween n chars →
      decodeUtf8 ((chars.flatMap String.utf8EncodeChar).take n) = fitting n chars) ∧
    (¬ CutsBetween n chars →
      decodeUtf8 ((chars.flatMap String.utf8EncodeChar).take n) =
        fitting n chars ++ [replacementChar]) := by
  induction chars generalizing n with
  | nil => exact ⟨fun _ => by simp [fitting, decodeUtf8], fun h => absurd (cutsBetween_nil n) h⟩
  | cons c chars ih =>
    have hsize := String.length_utf8EncodeChar c
    by_cases h : c.utf8Size ≤ n
    · have htake : ((c :: chars).flatMap String.utf8EncodeChar).take n =
          String.utf8EncodeChar c ++
            (chars.flatMap String.utf8EncodeChar).take (n - c.utf8Size) := by
        rw [List.flatMap_cons, List.take_append, List.take_of_length_le (by omega), hsize]
      rw [cutsBetween_cons_of_le h, htake, decodeUtf8_encodeChar, fitting, if_pos h]
      obtain ⟨hbetween, hinside⟩ := ih (n - c.utf8Size)
      exact ⟨fun hcut => by rw [hbetween hcut], fun hcut => by rw [hinside hcut]; rfl⟩
    · have hlt := Nat.not_le.mp h
      have htake : ((c :: chars).flatMap String.utf8EncodeChar).take n =
          (String.utf8EncodeChar c).take n := by
        rw [List.flatMap_cons, List.take_append_of_le_length (by omega)]
      rw [cutsBetween_cons_of_lt hlt, htake, fitting, if_neg h]
      refine ⟨?_, fun hn => decodeUtf8_take_encodeChar (Nat.pos_of_ne_zero hn) hlt⟩
      rintro rfl
      rw [List.take_zero]
      rfl

/-- What fits is the longest prefix that does. -/
lemma isLongestFitting_fitting (n : ℕ) (chars : List Char) :
    IsLongestFitting n chars (fitting n chars) := by
  induction chars generalizing n with
  | nil => exact ⟨⟨List.prefix_refl [], Nat.zero_le n⟩, fun q hq _ => hq⟩
  | cons c chars ih =>
    obtain ⟨⟨htaken, hlen⟩, hlongest⟩ := ih (n - c.utf8Size)
    rw [fitting]
    split_ifs with h
    · refine ⟨⟨List.cons_prefix_cons.mpr ⟨rfl, htaken⟩, ?_⟩, fun q hq hqlen => ?_⟩
      · rw [utf8Length_cons]
        omega
      · cases q with
        | nil => exact List.nil_prefix
        | cons c' q =>
          obtain ⟨rfl, hrest⟩ := List.cons_prefix_cons.mp hq
          rw [utf8Length_cons] at hqlen
          exact List.cons_prefix_cons.mpr ⟨rfl, hlongest q hrest (by omega)⟩
    · refine ⟨⟨List.nil_prefix, Nat.zero_le n⟩, fun q hq hqlen => ?_⟩
      cases q with
      | nil => exact List.nil_prefix
      | cons c' q =>
        obtain ⟨rfl, -⟩ := List.cons_prefix_cons.mp hq
        rw [utf8Length_cons] at hqlen
        omega

/-- There is one longest beginning that fits. -/
lemma IsLongestFitting.unique {chars p q : List Char} (hp : IsLongestFitting n chars p)
    (hq : IsLongestFitting n chars q) : p = q :=
  (hq.2 p hp.1.1 hp.1.2).eq_of_length_le (hp.2 q hq.1.1 hq.1.2).length_le

/-- A text cut after `n` octets is read as its longest prefix that fits exactly if the cut is not
inside a character. -/
theorem isLongestFitting_decode_iff (n : ℕ) (s : String) :
    IsLongestFitting n s.toList (decodeReplace ((encodeUtf8 s : Bytes β).take n)).toList ↔
      CutsBetween n s.toList := by
  have hread : (decodeReplace ((encodeUtf8 s : Bytes β).take n)).toList =
      decodeUtf8 ((s.toList.flatMap String.utf8EncodeChar).take n) := by
    rw [decodeReplace, String.toList_ofList, encodeUtf8_eq, ← List.map_take, List.map_map]
    simp [Function.comp_def]
  obtain ⟨hbetween, hinside⟩ := decodeUtf8_take n s.toList
  have hfitting := isLongestFitting_fitting n s.toList
  rw [hread]
  by_cases h : CutsBetween n s.toList
  · rw [hbetween h]
    exact iff_of_true hfitting h
  · rw [hinside h]
    refine iff_of_false (fun hlongest => ?_) h
    have hlength := congrArg List.length (hlongest.unique hfitting)
    rw [List.length_append, List.length_singleton] at hlength
    omega

/-- A whole string is read back. -/
lemma decodeReplace_encodeUtf8 (text : String) :
    decodeReplace (encodeUtf8 text : Bytes β) = text := by
  have hall : (encodeUtf8 text : Bytes β).length ≤ utf8Length text.toList := by
    rw [encodeUtf8_eq, List.length_map, utf8Length]
    simp
  have hlongest := (isLongestFitting_decode_iff (β := β) (utf8Length text.toList) text).mpr
    (Or.inl (Nat.le_refl _))
  rw [List.take_of_length_le hall] at hlongest
  have hself : IsLongestFitting (utf8Length text.toList) text.toList text.toList :=
    ⟨⟨List.prefix_refl _, Nat.le_refl _⟩, fun q hq _ => hq⟩
  exact String.toList_inj.mp (hlongest.unique hself)

end Chatbit
