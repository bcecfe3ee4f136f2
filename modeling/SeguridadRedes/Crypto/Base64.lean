import SeguridadRedes.C.Strings

namespace Crypto

open C

def base64Alphabet : Bytes := ascii "ABCDEFGHIJKLMNOPQRSTUVWXYZabcdefghijklmnopqrstuvwxyz0123456789+/"

def base64Char (n : Nat) : UInt8 := base64Alphabet.getD n 0

def base64Value (c : UInt8) : Nat := base64Alphabet.idxOf c

def base64Pad : UInt8 := 0x3d

def base64Text : Bytes → Bytes
  | [] => []
  | [a] => [base64Char (a.toNat / 4), base64Char (a.toNat % 4 * 16), base64Pad, base64Pad]
  | [a, b] =>
    [base64Char (a.toNat / 4), base64Char (a.toNat % 4 * 16 + b.toNat / 16),
      base64Char (b.toNat % 16 * 4), base64Pad]
  | a :: b :: c :: rest =>
    [base64Char (a.toNat / 4), base64Char (a.toNat % 4 * 16 + b.toNat / 16),
      base64Char (b.toNat % 16 * 4 + c.toNat / 64), base64Char (c.toNat % 64)] ++ base64Text rest

def base64Bytes : Bytes → Bytes
  | p :: q :: r :: s :: rest =>
    let first := UInt8.ofNat (base64Value p * 4 + base64Value q / 16)
    if r = base64Pad then [first]
    else
      let second := UInt8.ofNat (base64Value q % 16 * 16 + base64Value r / 4)
      if s = base64Pad then [first, second]
      else first :: second :: UInt8.ofNat (base64Value r % 4 * 64 + base64Value s) :: base64Bytes rest
  | _ => []

theorem base64Char_value (n : Nat) (h : n < 64) : base64Value (base64Char n) = n := by
  have all : ∀ n ∈ List.range 64, base64Value (base64Char n) = n := by decide +kernel
  exact all n (List.mem_range.mpr h)

theorem base64Char_mem (n : Nat) (h : n < 64) : base64Char n ∈ base64Alphabet := by
  have all : ∀ n ∈ List.range 64, base64Char n ∈ base64Alphabet := by decide +kernel
  exact all n (List.mem_range.mpr h)

theorem base64Char_ne_pad (n : Nat) (h : n < 64) : base64Char n ≠ base64Pad := by
  have outside : base64Pad ∉ base64Alphabet := by decide
  exact fun same => outside (same ▸ base64Char_mem n h)

theorem sextets (a : UInt8) : a.toNat / 4 < 64 ∧ a.toNat % 4 < 4 ∧ a.toNat / 16 < 16 ∧
    a.toNat % 16 < 16 ∧ a.toNat / 64 < 4 ∧ a.toNat % 64 < 64 := by
  have bound := a.toNat_lt
  omega

theorem ofNat_toNat_of_eq {n : Nat} {a : UInt8} (h : n = a.toNat) : UInt8.ofNat n = a := by
  rw [h, UInt8.ofNat_toNat]

theorem base64Bytes_text (data : Bytes) : base64Bytes (base64Text data) = data := by
  induction data using base64Text.induct with
  | case1 => rfl
  | case2 a =>
    have ha := sextets a
    rw [base64Text, base64Bytes, base64Char_value _ ha.1, base64Char_value _ (by omega), if_pos rfl,
      ofNat_toNat_of_eq (a := a) (by omega)]
  | case3 a b =>
    have ha := sextets a
    have hb := sextets b
    rw [base64Text, base64Bytes, if_neg (base64Char_ne_pad _ (by omega)), if_pos rfl,
      base64Char_value _ ha.1, base64Char_value _ (by omega), base64Char_value _ (by omega),
      ofNat_toNat_of_eq (a := a) (by omega), ofNat_toNat_of_eq (a := b) (by omega)]
  | case4 a b c rest ih =>
    have ha := sextets a
    have hb := sextets b
    have hc := sextets c
    simp only [base64Text, List.cons_append, List.nil_append, base64Bytes]
    rw [if_neg (base64Char_ne_pad _ (by omega)), if_neg (base64Char_ne_pad _ hc.2.2.2.2.2),
      base64Char_value _ ha.1, base64Char_value _ (by omega), base64Char_value _ (by omega),
      base64Char_value _ hc.2.2.2.2.2, ih,
      ofNat_toNat_of_eq (a := a) (by omega), ofNat_toNat_of_eq (a := b) (by omega),
      ofNat_toNat_of_eq (a := c) (by omega)]

theorem mem_base64Text {data : Bytes} {c : UInt8} (h : c ∈ base64Text data) :
    c ∈ base64Alphabet ∨ c = base64Pad := by
  induction data using base64Text.induct with
  | case1 => cases h
  | case2 a =>
    have ha := sextets a
    simp only [base64Text, List.mem_cons, List.not_mem_nil, or_false] at h
    rcases h with rfl | rfl | rfl | rfl
    · exact Or.inl (base64Char_mem _ ha.1)
    · exact Or.inl (base64Char_mem _ (by omega))
    · exact Or.inr rfl
    · exact Or.inr rfl
  | case3 a b =>
    have ha := sextets a
    have hb := sextets b
    simp only [base64Text, List.mem_cons, List.not_mem_nil, or_false] at h
    rcases h with rfl | rfl | rfl | rfl
    · exact Or.inl (base64Char_mem _ ha.1)
    · exact Or.inl (base64Char_mem _ (by omega))
    · exact Or.inl (base64Char_mem _ (by omega))
    · exact Or.inr rfl
  | case4 a b c' rest ih =>
    have ha := sextets a
    have hb := sextets b
    have hc := sextets c'
    simp only [base64Text, List.cons_append, List.nil_append, List.mem_cons] at h
    rcases h with rfl | rfl | rfl | rfl | h
    · exact Or.inl (base64Char_mem _ ha.1)
    · exact Or.inl (base64Char_mem _ (by omega))
    · exact Or.inl (base64Char_mem _ (by omega))
    · exact Or.inl (base64Char_mem _ hc.2.2.2.2.2)
    · exact ih h

def breakLines (width : Nat) (text : Bytes) : Bytes :=
  if _flat : width = 0 ∨ text = [] then text
  else text.take width ++ 0x0a :: breakLines width (text.drop width)
termination_by text.length
decreasing_by
  have positive := List.length_pos_iff.mpr fun empty => _flat (Or.inr empty)
  rw [List.length_drop]
  omega

/-- What a base64 filter prints for the bytes written through it. -/
def base64Print (data : Bytes) : Bytes := breakLines 64 (base64Text data)

/-- What the filter passes on at once: a line of 64 characters for every 48 bytes. -/
def base64Lines (data : Bytes) : Bytes := (base64Print data).take (65 * (data.length / 48))

def base64Rest (data : Bytes) : Bytes := (base64Print data).drop (65 * (data.length / 48))

theorem base64Lines_rest (data : Bytes) : base64Lines data ++ base64Rest data = base64Print data :=
  List.take_append_drop _ _

theorem base64Text_length (data : Bytes) : (base64Text data).length ≤ 4 * data.length := by
  induction data using base64Text.induct with
  | case1 => exact Nat.le_refl 0
  | case2 a => exact Nat.le_refl 4
  | case3 a b => exact Nat.le_add_left 4 4
  | case4 a b c rest ih =>
    simp only [base64Text, List.length_append, List.length_cons, List.length_nil]
    omega

theorem breakLines_length (width : Nat) (text : Bytes) : (breakLines width text).length ≤ 2 * text.length := by
  induction text using breakLines.induct width with
  | case1 text flat =>
    rw [breakLines, dif_pos flat]
    omega
  | case2 text broken ih =>
    have positive := List.length_pos_iff.mpr fun empty => broken (Or.inr empty)
    have wide : 0 < width := Nat.pos_of_ne_zero fun flat => broken (Or.inl flat)
    rw [breakLines, dif_neg broken, List.length_append, List.length_cons, List.length_take]
    rw [List.length_drop] at ih
    omega

theorem base64Print_length (data : Bytes) : (base64Print data).length ≤ 8 * data.length := by
  have broken := breakLines_length 64 (base64Text data)
  have text := base64Text_length data
  unfold base64Print
  omega

/-- The text after a first line that begins with a dash. -/
def skipHeading : Bytes → Bytes
  | 0x2d :: rest => (rest.dropWhile (· ≠ 0x0a)).drop 1
  | text => text

/-- What a base64 filter reads from a text: the lines up to the first dash after the heading. -/
def base64Read (text : Bytes) : Bytes :=
  base64Bytes (((skipHeading text).takeWhile (· ≠ 0x2d)).filter (· ≠ 0x0a))

theorem filter_breakLines (width : Nat) {text : Bytes} (flat : ∀ c ∈ text, c ≠ 0x0a) :
    (breakLines width text).filter (· ≠ 0x0a) = text := by
  induction text using breakLines.induct width with
  | case1 text h =>
    rw [breakLines, dif_pos h, List.filter_eq_self]
    simpa using flat
  | case2 text h ih =>
    have front : (text.take width).filter (· ≠ 0x0a) = text.take width := by
      rw [List.filter_eq_self]
      intro c member
      simpa using flat c (List.mem_of_mem_take member)
    rw [breakLines, dif_neg h, List.filter_append, List.filter_cons_of_neg (by decide), front,
      ih fun c member => flat c (List.mem_of_mem_drop member), List.take_append_drop]

theorem mem_breakLines {width : Nat} {text : Bytes} {c : UInt8} (h : c ∈ breakLines width text) :
    c ∈ text ∨ c = 0x0a := by
  induction text using breakLines.induct width with
  | case1 text stop =>
    rw [breakLines, dif_pos stop] at h
    exact Or.inl h
  | case2 text stop ih =>
    rw [breakLines, dif_neg stop, List.mem_append, List.mem_cons] at h
    rcases h with front | rfl | behind
    · exact Or.inl (List.mem_of_mem_take front)
    · exact Or.inr rfl
    · exact (ih behind).imp List.mem_of_mem_drop id

theorem skipHeading_line {title : Bytes} (flat : 0x0a ∉ title) (rest : Bytes) :
    skipHeading (0x2d :: title ++ 0x0a :: rest) = rest := by
  have oneLine : ∀ c ∈ title, c ≠ 0x0a := fun c member same => flat (same ▸ member)
  have passed : (title ++ 0x0a :: rest).dropWhile (· ≠ 0x0a) = 0x0a :: rest := by
    rw [List.dropWhile_append_of_pos (by simpa using oneLine), List.dropWhile_cons_of_neg (by decide)]
  rw [List.cons_append, skipHeading, passed]
  rfl

/-- Bytes printed between two lines that begin with a dash are read back. -/
theorem base64Read_framed {title : Bytes} (flat : 0x0a ∉ title) (data ending : Bytes) :
    base64Read (0x2d :: title ++ 0x0a :: (base64Print data ++ 0x2d :: ending)) = data := by
  have noDash : (0x2d : UInt8) ∉ base64Alphabet := by decide
  have noFeed : (0x0a : UInt8) ∉ base64Alphabet := by decide
  have body : ∀ c ∈ base64Print data, c ≠ 0x2d := by
    intro c member same
    subst same
    rcases mem_breakLines member with text | feed
    · rcases mem_base64Text text with letter | pad
      · exact noDash letter
      · exact absurd pad (by decide)
    · exact absurd feed (by decide)
  have oneLine : ∀ c ∈ base64Text data, c ≠ 0x0a := by
    intro c member same
    subst same
    rcases mem_base64Text member with letter | pad
    · exact noFeed letter
    · exact absurd pad (by decide)
  rw [base64Read, skipHeading_line flat, List.takeWhile_append_of_pos (by simpa using body),
    List.takeWhile_cons_of_neg (by decide), List.append_nil, base64Print, filter_breakLines 64 oneLine,
    base64Bytes_text]

end Crypto
