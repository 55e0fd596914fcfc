import Mathlib.Data.List.Nodup
import Mathlib.Data.String.Basic
import Mathlib.Tactic.IntervalCases
import Substation.Text.Base64

/-!
# Padded base64

The check of a text looks at its length and, from the end, at its characters. `isBase64_iff` states
which texts pass as a shape: characters of the alphabet, then padding. Beside the check stands what
the shape is for, the encoding of bytes by groups of three (`encode`) and its way back (`decode?`).
`base64_texts_decided` says that every encoding passes, and that every text that passes can be
decoded to as many bytes as its length and its padding tell.

Results:
* `isBase64_iff` (`is_base64`): the texts that pass, as a shape;
* `base64_texts_decided`: they are those that can be decoded.
-/

namespace Substation.Text

/-! ## The characters -/

/-- The characters of base64, in the order of the values that they stand for. -/
def base64Alphabet : List Char :=
  ['A', 'B', 'C', 'D', 'E', 'F', 'G', 'H', 'I', 'J', 'K', 'L', 'M', 'N', 'O', 'P',
    'Q', 'R', 'S', 'T', 'U', 'V', 'W', 'X', 'Y', 'Z', 'a', 'b', 'c', 'd', 'e', 'f',
    'g', 'h', 'i', 'j', 'k', 'l', 'm', 'n', 'o', 'p', 'q', 'r', 's', 't', 'u', 'v',
    'w', 'x', 'y', 'z', '0', '1', '2', '3', '4', '5', '6', '7', '8', '9', '+', '/']

theorem length_base64Alphabet : base64Alphabet.length = 64 := rfl

theorem nodup_base64Alphabet : base64Alphabet.Nodup :=
  List.Nodup.of_map Char.toNat (by decide +kernel)

/-- The character of a value of six bits. -/
def sextetChar (a : Fin 64) : Char :=
  base64Alphabet.get (a.cast length_base64Alphabet.symm)

/-- The value of six bits that a character stands for. -/
def sextet? (c : Char) : Option (Fin 64) :=
  (base64Alphabet.finIdxOf? c).map (Fin.cast length_base64Alphabet)

theorem sextet?_sextetChar (a : Fin 64) : sextet? (sextetChar a) = some a := by
  have hfirst : base64Alphabet.finIdxOf? (sextetChar a) =
      some (a.cast length_base64Alphabet.symm) := by
    refine List.finIdxOf?_eq_some_iff.mpr ⟨rfl, fun j hj hchar => Fin.ne_of_lt hj ?_⟩
    exact nodup_base64Alphabet.get_inj_iff.mp hchar
  rw [sextet?, hfirst]
  rfl

theorem mem_base64Alphabet_iff {c : Char} : c ∈ base64Alphabet ↔ ∃ a, sextetChar a = c := by
  rw [List.mem_iff_get]
  constructor
  · rintro ⟨i, rfl⟩
    exact ⟨i.cast length_base64Alphabet, rfl⟩
  · rintro ⟨a, rfl⟩
    exact ⟨_, rfl⟩

theorem toNat_lt_of_isBase64Char {c : Char} (h : isBase64Char c = true) : c.toNat < 128 := by
  have hclasses : isBase64Char c = (decide ('A'.val ≤ c.val ∧ c.val ≤ 'Z'.val) ||
      (decide ('a'.val ≤ c.val) && decide (c.val ≤ 'z'.val)) || c.isDigit ||
      c == '+' || c == '/') := rfl
  simp only [hclasses, Bool.or_eq_true, Bool.and_eq_true, beq_iff_eq, decide_eq_true_eq,
    UInt32.le_iff_toNat_le, Char.isDigit_iff_toNat] at h
  rcases h with (h | rfl) | rfl
  · change ((65 ≤ c.toNat ∧ c.toNat ≤ 90) ∨ (97 ≤ c.toNat ∧ c.toNat ≤ 122)) ∨
      (48 ≤ c.toNat ∧ c.toNat ≤ 57) at h
    omega
  · decide
  · decide

/-- The check by classes of characters is the one by the alphabet. -/
theorem isBase64Char_iff {c : Char} : isBase64Char c = true ↔ c ∈ base64Alphabet := by
  constructor
  · -- the characters below 128 are few enough to go through
    have hall : ∀ n < 128, isBase64Char (Char.ofNat n) = true →
        n ∈ base64Alphabet.map Char.toNat := by decide +kernel
    intro h
    have hc := hall c.toNat (toNat_lt_of_isBase64Char h)
    rw [Char.ofNat_toNat] at hc
    obtain ⟨c', hc', heq⟩ := List.mem_map.mp (hc h)
    exact Char.toNat_inj.mp heq ▸ hc'
  · have hall : base64Alphabet.all isBase64Char = true := by decide +kernel
    exact List.all_eq_true.mp hall c

theorem pad_notMem_base64Alphabet : '=' ∉ base64Alphabet := by decide +kernel

/-! ## The shape -/

/-- Characters of the alphabet, at least one, and up to two characters of padding after them, in
whole groups of four. -/
structure IsPadded (s body : List Char) (pads : Nat) : Prop where
  text : s = body ++ List.replicate pads '='
  nonempty : body ≠ []
  alphabet : ∀ c ∈ body, c ∈ base64Alphabet
  padding : pads ≤ 2
  groups : s.length % 4 = 0

theorem exists_dropPad (s : List Char) : ∃ k ≤ 1, s = List.replicate k '=' ++ dropPad s := by
  unfold dropPad
  split
  · exact ⟨1, le_refl 1, rfl⟩
  · exact ⟨0, Nat.zero_le 1, rfl⟩

theorem dropPad_of_head? {s : List Char} (h : ∀ c ∈ s.head?, c ≠ '=') : dropPad s = s := by
  unfold dropPad
  split
  · exact absurd rfl (h '=' rfl)
  · rfl

/-- Dropping padding twice leaves what is in front of up to two characters of it. -/
theorem dropPad_dropPad_replicate {pads : Nat} {s : List Char} (hpads : pads ≤ 2)
    (h : ∀ c ∈ s.head?, c ≠ '=') : dropPad (dropPad (List.replicate pads '=' ++ s)) = s := by
  interval_cases pads
  · rw [List.replicate_zero, List.nil_append, dropPad_of_head? h, dropPad_of_head? h]
  · exact dropPad_of_head? h
  · rfl

theorem isBase64_eq_true_iff {v : String} : isBase64 v = true ↔
    v.toList ≠ [] ∧ v.toList.length % 4 = 0 ∧
      ∀ c ∈ dropPad (dropPad v.toList.reverse), c ∈ base64Alphabet := by
  simp only [isBase64, Bool.and_eq_true, Bool.not_eq_true', List.isEmpty_eq_false_iff, beq_iff_eq,
    List.all_eq_true, isBase64Char_iff, and_assoc]

theorem isBase64_iff {v : String} :
    isBase64 v = true ↔ ∃ body pads, IsPadded v.toList body pads := by
  rw [isBase64_eq_true_iff]
  constructor
  · rintro ⟨hne, hgroups, hall⟩
    obtain ⟨j, hj, hfirst⟩ := exists_dropPad v.toList.reverse
    obtain ⟨k, hk, hsecond⟩ := exists_dropPad (dropPad v.toList.reverse)
    generalize dropPad (dropPad v.toList.reverse) = rest at hsecond hall
    have htext : v.toList = rest.reverse ++ List.replicate (j + k) '=' := by
      rw [← List.reverse_inj, hfirst, hsecond, List.reverse_append, List.reverse_reverse,
        List.reverse_replicate, ← List.append_assoc, List.replicate_append_replicate]
    refine ⟨rest.reverse, j + k, htext, ?_, fun c hc => hall c (List.mem_reverse.mp hc), by omega,
      hgroups⟩
    -- padding alone is too short for a group
    intro hnil
    rw [hnil, List.nil_append] at htext
    rw [htext, List.length_replicate] at hgroups
    have hzero : j + k = 0 := by omega
    rw [hzero] at htext
    exact hne htext
  · rintro ⟨body, pads, htext, hne, hall, hpads, hgroups⟩
    have hhead : ∀ c ∈ body.reverse.head?, c ≠ '=' := fun c hc =>
      ne_of_mem_of_not_mem (hall c (List.mem_reverse.mp (List.mem_of_mem_head? hc)))
        pad_notMem_base64Alphabet
    refine ⟨?_, hgroups, ?_⟩
    · rw [htext]
      exact List.append_ne_nil_of_left_ne_nil hne _
    · rw [htext, List.reverse_append, List.reverse_replicate,
        dropPad_dropPad_replicate hpads hhead]
      exact fun c hc => hall c (List.mem_reverse.mp hc)

/-! ## Bytes by groups of three -/

/-- The values of six bits that bytes consist of, four for every three bytes. Where the last group
is short, the bits that are missing in its last value are zero. -/
def sextets : List UInt8 → List (Fin 64)
  | [] => []
  | [x] => [Fin.ofNat 64 (x.toNat / 4), Fin.ofNat 64 (x.toNat % 4 * 16)]
  | [x, y] =>
    [Fin.ofNat 64 (x.toNat / 4), Fin.ofNat 64 (x.toNat % 4 * 16 + y.toNat / 16),
      Fin.ofNat 64 (y.toNat % 16 * 4)]
  | x :: y :: z :: rest =>
    Fin.ofNat 64 (x.toNat / 4) :: Fin.ofNat 64 (x.toNat % 4 * 16 + y.toNat / 16) ::
      Fin.ofNat 64 (y.toNat % 16 * 4 + z.toNat / 64) :: Fin.ofNat 64 (z.toNat % 64) :: sextets rest

/-- The first byte of a group. -/
def highByte (a b : Fin 64) : UInt8 := UInt8.ofNat (a * 4 + b / 16)

/-- The second byte of a group. -/
def middleByte (b c : Fin 64) : UInt8 := UInt8.ofNat (b % 16 * 16 + c / 4)

/-- The third byte of a group. -/
def lowByte (c d : Fin 64) : UInt8 := UInt8.ofNat (c % 4 * 64 + d)

/-- The bytes that values of six bits make up, three for every four values. The bits at the end
that do not fill a byte are left out; a single value is not enough for one. -/
def bytes? : List (Fin 64) → Option (List UInt8)
  | [] => some []
  | [_] => none
  | [a, b] => some [highByte a b]
  | [a, b, c] => some [highByte a b, middleByte b c]
  | a :: b :: c :: d :: rest =>
    (bytes? rest).map ([highByte a b, middleByte b c, lowByte c d] ++ ·)

theorem ofNat_byte {n : Nat} {x : UInt8} (h : n = x.toNat) : UInt8.ofNat n = x := by
  rw [h, UInt8.ofNat_toNat]

theorem ofNat_sextet {n : Nat} {a : Fin 64} (h : n = a.val) : Fin.ofNat 64 n = a :=
  Fin.ext (by rw [Fin.val_ofNat, h, Nat.mod_eq_of_lt a.isLt])

theorem toNat_highByte (a b : Fin 64) : (highByte a b).toNat = a * 4 + b / 16 := by
  rw [highByte, UInt8.toNat_ofNat']
  omega

theorem toNat_middleByte (b c : Fin 64) : (middleByte b c).toNat = b % 16 * 16 + c / 4 := by
  rw [middleByte, UInt8.toNat_ofNat']
  omega

theorem toNat_lowByte (c d : Fin 64) : (lowByte c d).toNat = c % 4 * 64 + d := by
  rw [lowByte, UInt8.toNat_ofNat']
  omega

/-- No byte is lost. -/
theorem bytes?_sextets (bs : List UInt8) : bytes? (sextets bs) = some bs := by
  induction bs using sextets.induct with
  | case1 => rfl
  | case2 x =>
    have hx := x.toNat_lt
    simp only [sextets, bytes?, highByte, Fin.val_ofNat]
    rw [ofNat_byte (x := x) (by omega)]
  | case3 x y =>
    have hx := x.toNat_lt
    have hy := y.toNat_lt
    simp only [sextets, bytes?, highByte, middleByte, Fin.val_ofNat]
    rw [ofNat_byte (x := x) (by omega), ofNat_byte (x := y) (by omega)]
  | case4 x y z rest ih =>
    have hx := x.toNat_lt
    have hy := y.toNat_lt
    have hz := z.toNat_lt
    simp only [sextets, bytes?, highByte, middleByte, lowByte, Fin.val_ofNat, ih, Option.map_some]
    rw [ofNat_byte (x := x) (by omega), ofNat_byte (x := y) (by omega),
      ofNat_byte (x := z) (by omega)]
    rfl

/-- No value of a whole group is lost. -/
theorem sextets_group (a b c d : Fin 64) (bs : List UInt8) :
    sextets ([highByte a b, middleByte b c, lowByte c d] ++ bs) =
      a :: b :: c :: d :: sextets bs := by
  simp only [List.cons_append, List.nil_append, sextets, toNat_highByte, toNat_middleByte,
    toNat_lowByte]
  rw [ofNat_sextet (a := a) (by omega), ofNat_sextet (a := b) (by omega),
    ofNat_sextet (a := c) (by omega), ofNat_sextet (a := d) (by omega)]

theorem length_sextets (bs : List UInt8) : (sextets bs).length = (4 * bs.length + 2) / 3 := by
  induction bs using sextets.induct with
  | case1 => rfl
  | case2 x => simp [sextets]
  | case3 x y => simp [sextets]
  | case4 x y z rest ih =>
    simp only [sextets, List.length_cons, ih]
    omega

/-- Values that do not leave a single one over are bytes, three quarters as many, and these consist
of the same values but for bits of the last one. -/
theorem exists_bytes (as : List (Fin 64)) (hlen : as.length % 4 ≠ 1) (hne : as ≠ []) :
    ∃ bs, bytes? as = some bs ∧ bs.length = 3 * as.length / 4 ∧
      ∃ front a a', as = front ++ [a] ∧ sextets bs = front ++ [a'] := by
  induction as using bytes?.induct with
  | case1 => exact absurd rfl hne
  | case2 a => exact absurd rfl hlen
  | case3 a b =>
    -- four bits of the last value are not used
    refine ⟨_, rfl, by simp, [a], b, Fin.ofNat 64 (b / 16 * 16), rfl, ?_⟩
    simp only [sextets, toNat_highByte]
    rw [ofNat_sextet (a := a) (by omega),
      ofNat_sextet (a := Fin.ofNat 64 (b / 16 * 16)) (by rw [Fin.val_ofNat]; omega)]
    rfl
  | case4 a b c =>
    -- two bits of the last value are not used
    refine ⟨_, rfl, by simp, [a, b], c, Fin.ofNat 64 (c / 4 * 4), rfl, ?_⟩
    simp only [sextets, toNat_highByte, toNat_middleByte]
    rw [ofNat_sextet (a := a) (by omega), ofNat_sextet (a := b) (by omega),
      ofNat_sextet (a := Fin.ofNat 64 (c / 4 * 4)) (by rw [Fin.val_ofNat]; omega)]
    rfl
  | case5 a b c d rest ih =>
    by_cases hrest : rest = []
    · rw [hrest]
      exact ⟨_, rfl, by simp, [a, b, c], d, d, rfl, sextets_group a b c d []⟩
    · simp only [List.length_cons] at hlen
      obtain ⟨bs, hbs, hcount, front, last, last', hfront, hagree⟩ := ih (by omega) hrest
      refine ⟨_, by rw [bytes?, hbs]; rfl, ?_, a :: b :: c :: d :: front, last, last', ?_, ?_⟩
      · simp only [List.length_append, List.length_cons, List.length_nil, hcount]
        omega
      · rw [hfront]
        rfl
      · rw [sextets_group, hagree]
        rfl

/-! ## Encoding and decoding -/

/-- The length of the padding, one character for each byte that the last group of three lacks. -/
def padCount (n : Nat) : Nat := (3 - n % 3) % 3

theorem padCount_cases (n : Nat) :
    n % 3 = 0 ∧ padCount n = 0 ∨ n % 3 = 1 ∧ padCount n = 2 ∨ n % 3 = 2 ∧ padCount n = 1 := by
  unfold padCount
  omega

/-- Bytes in base64, with padding up to a whole group. -/
def encode (bs : List UInt8) : List Char :=
  (sextets bs).map sextetChar ++ List.replicate (padCount bs.length) '='

/-- The bytes of a text in base64, up to its padding. -/
def decode? (s : List Char) : Option (List UInt8) :=
  ((s.takeWhile (· != '=')).mapM sextet?).bind bytes?

theorem isPadded_encode {bs : List UInt8} (h : bs ≠ []) :
    IsPadded (encode bs) ((sextets bs).map sextetChar) (padCount bs.length) := by
  have hlen := List.length_pos_iff.mpr h
  have hpads := padCount_cases bs.length
  refine ⟨rfl, ?_, ?_, by omega, ?_⟩
  · rw [← List.length_pos_iff, List.length_map, length_sextets]
    omega
  · rintro _ hc
    obtain ⟨a, -, rfl⟩ := List.mem_map.mp hc
    exact mem_base64Alphabet_iff.mpr ⟨a, rfl⟩
  · simp only [encode, List.length_append, List.length_map, List.length_replicate, length_sextets]
    omega

/-- The values of the characters in front of the padding. -/
theorem IsPadded.exists_sextets {s body : List Char} {pads : Nat} (h : IsPadded s body pads) :
    ∃ as : List (Fin 64), body = as.map sextetChar := by
  choose! value hvalue using fun c hc => mem_base64Alphabet_iff.mp (h.alphabet c hc)
  refine ⟨body.map value, ?_⟩
  rw [List.map_map]
  exact ((List.map_congr_left hvalue).trans (List.map_id body)).symm

theorem mapM_sextet? (as : List (Fin 64)) : (as.map sextetChar).mapM sextet? = some as := by
  induction as with
  | nil => rfl
  | cons a as ih => simp only [List.map_cons, List.mapM_cons, sextet?_sextetChar, ih]; rfl

theorem IsPadded.decode?_eq {s : List Char} {as : List (Fin 64)} {pads : Nat}
    (h : IsPadded s (as.map sextetChar) pads) : decode? s = bytes? as := by
  have hbody : ∀ c ∈ as.map sextetChar, (c != '=') = true := fun c hc =>
    bne_iff_ne.mpr (ne_of_mem_of_not_mem (h.alphabet c hc) pad_notMem_base64Alphabet)
  have hpads : (List.replicate pads '=').takeWhile (· != '=') = [] := by
    rw [List.takeWhile_replicate]
    rfl
  rw [decode?, h.text, List.takeWhile_append_of_pos hbody, hpads, List.append_nil,
    mapM_sextet?, Option.bind_some]

theorem decode?_encode {bs : List UInt8} (h : bs ≠ []) : decode? (encode bs) = some bs := by
  rw [(isPadded_encode h).decode?_eq, bytes?_sextets]

/-! ## What a text of the shape holds -/

theorem utf8Len_eq_length {s : List Char} (h : ∀ c ∈ s, c.utf8Size = 1) :
    String.utf8Len s = s.length := by
  induction s with
  | nil => rfl
  | cons c s ih =>
    rw [List.forall_mem_cons] at h
    rw [String.utf8Len_cons, ih h.2, h.1, List.length_cons]

section Padded

variable {s body : List Char} {pads : Nat}

/-- A text of the shape has one byte for each character. -/
theorem IsPadded.utf8ByteSize (h : IsPadded s body pads) :
    (String.ofList s).utf8ByteSize = s.length := by
  have hsize : ∀ c ∈ s, c.utf8Size = 1 := by
    rw [h.text]
    intro c hc
    rcases List.mem_append.mp hc with hc | hc
    · have hlt := toNat_lt_of_isBase64Char (isBase64Char_iff.mpr (h.alphabet c hc))
      exact Char.utf8Size_eq_one_iff.mpr (UInt32.le_iff_toNat_le.mpr (Nat.le_of_lt_succ hlt))
    · rw [List.eq_of_mem_replicate hc]
      rfl
  rw [String.utf8ByteSize_ofList, utf8Len_eq_length hsize]

theorem IsPadded.count (h : IsPadded s body pads) : s.count '=' = pads := by
  have hbody : body.count '=' = 0 :=
    List.count_eq_zero.mpr fun hpad => pad_notMem_base64Alphabet (h.alphabet _ hpad)
  rw [h.text, List.count_append, hbody, List.count_replicate_self, Nat.zero_add]

theorem IsPadded.exists_bytes (h : IsPadded s body pads) :
    ∃ bs, decode? s = some bs ∧ bs.length + pads = 3 * s.length / 4 ∧ 1 ≤ bs.length ∧
      ∃ front c c', s = front ++ c :: List.replicate pads '=' ∧
        encode bs = front ++ c' :: List.replicate pads '=' := by
  obtain ⟨as, rfl⟩ := h.exists_sextets
  have hne : as ≠ [] := mt List.map_eq_nil_iff.mpr h.nonempty
  have hpos := List.length_pos_iff.mpr hne
  have hgroups := h.groups
  have hpads := h.padding
  have hlen : s.length = as.length + pads := by
    rw [h.text, List.length_append, List.length_map, List.length_replicate]
  obtain ⟨bs, hbs, hcount, front, a, a', hfront, hagree⟩ := Text.exists_bytes as (by omega) hne
  have hfill : padCount bs.length = pads := by
    have := padCount_cases bs.length
    omega
  refine ⟨bs, h.decode?_eq.trans hbs, by omega, by omega, front.map sextetChar, sextetChar a,
    sextetChar a', ?_, ?_⟩
  · rw [h.text, hfront, List.map_append, List.append_assoc]
    rfl
  · rw [encode, hagree, hfill, List.map_append, List.append_assoc]
    rfl

end Padded

/-- **The texts that pass are the ones in padded base64.** A text passes if and only if it consists
of characters of the alphabet, at least one, and of up to two characters of padding after them, in
whole groups of four. The encoding of bytes passes, unless there are none, and is decoded to them.
Every text that passes can be decoded, to three bytes for every four of its own less one for each
character of padding, which leaves at least one; it is the encoding of these bytes but for the bits
of its last character that no byte takes up. -/
theorem base64_texts_decided :
    (∀ v : String, isBase64 v = true ↔ ∃ body pads, IsPadded v.toList body pads) ∧
    (∀ bs, bs ≠ [] → isBase64 (String.ofList (encode bs)) = true ∧
      decode? (encode bs) = some bs) ∧
    ∀ v : String, isBase64 v = true → ∃ bs, decode? v.toList = some bs ∧
      bs.length + v.toList.count '=' = 3 * v.utf8ByteSize / 4 ∧ 1 ≤ bs.length ∧
      ∃ front c c' pads, v.toList = front ++ c :: List.replicate pads '=' ∧
        encode bs = front ++ c' :: List.replicate pads '=' := by
  refine ⟨fun v => isBase64_iff, fun bs hbs => ⟨?_, decode?_encode hbs⟩, fun v hv => ?_⟩
  · rw [isBase64_iff, String.toList_ofList]
    exact ⟨_, _, isPadded_encode hbs⟩
  · obtain ⟨body, pads, h⟩ := isBase64_iff.mp hv
    obtain ⟨bs, hbs, hcount, hpos, front, c, c', hfront, hagree⟩ := h.exists_bytes
    have hbytes : v.utf8ByteSize = v.toList.length := by
      rw [← h.utf8ByteSize, String.ofList_toList]
    exact ⟨bs, hbs, by rw [h.count, hcount, hbytes], hpos, front, c, c', pads, hfront, hagree⟩

/-- Two bytes pass with one character of padding. The text that has a bit more set in its last
character passes too and holds two bytes. -/
theorem base64_texts_decided_two_bytes :
    String.ofList (encode [0xfb, 0xff]) = "+/8=" ∧ isBase64 "+/8=" = true ∧
    isBase64 "+/9=" = true ∧ ∃ bs, decode? "+/9=".toList = some bs ∧ bs.length = 2 := by
  obtain ⟨hshape, hencoded, hdecoded⟩ := base64_texts_decided
  have htext : String.ofList (encode [0xfb, 0xff]) = "+/8=" := by decide +kernel
  have hall : "+/9".toList.all isBase64Char = true := by decide
  have hpadded : IsPadded "+/9=".toList "+/9".toList 1 :=
    ⟨by decide, by decide, fun c hc => isBase64Char_iff.mp (List.all_eq_true.mp hall c hc),
      by decide, by decide⟩
  have hpass : isBase64 "+/9=" = true := (hshape _).mpr ⟨_, _, hpadded⟩
  obtain ⟨bs, hbs, hcount, -⟩ := hdecoded "+/9=" hpass
  refine ⟨htext, htext ▸ (hencoded [0xfb, 0xff] (by decide)).1, hpass, bs, hbs, ?_⟩
  exact Nat.add_right_cancel (hcount.trans (by decide))

end Substation.Text
