import MessageConformance.Text.Bytes
import MessageConformance.Markup.Escape
import Mathlib.Tactic.SplitIfs

/-!
# ASCII bytes and characters

A text has the byte of an ASCII character in its encoding exactly if it has the character
(`byte_mem_ofText_iff`), and bytes without it are never read as it, also where they are ill-formed
(`not_mem_text?`, `not_mem_lossyText`). Escaping neither makes nor removes a NUL
(`nul_mem_escapeText_iff`), and it leaves no brackets and quotation marks
(`not_mem_escapeText`).
-/

namespace MessageConformance

namespace Bytes

theorem ofText_eq_flatMap (s : String) :
    ofText s = s.toList.flatMap String.utf8EncodeChar := by
  rw [ofText, String.toUTF8_eq_toByteArray, ← String.utf8Encode_toList, List.utf8Encode,
    List.data_toByteArray]

/-- Of all characters only an ASCII character itself has its byte. -/
theorem byte_mem_utf8EncodeChar_iff {x : Char} (ascii : x.toNat < 128) (c : Char) :
    byte x ∈ String.utf8EncodeChar c ↔ c = x := by
  have same : c = x ↔ c.val.toNat = x.toNat := by
    rw [← Char.toNat_inj]
    rfl
  rw [same, String.utf8EncodeChar]
  have small (n : Nat) : byte x = UInt8.ofNat n ↔ n % 256 = x.toNat := by
    rw [← UInt8.toNat_inj, UInt8.toNat_ofNat', byte, UInt8.toNat_ofNat', eq_comm]
    omega
  split_ifs <;> simp only [List.mem_cons, List.not_mem_nil, or_false, small] <;> omega

theorem byte_mem_ofText_iff {x : Char} (ascii : x.toNat < 128) (s : String) :
    byte x ∈ ofText s ↔ x ∈ s.toList := by
  simp [ofText_eq_flatMap, List.mem_flatMap, byte_mem_utf8EncodeChar_iff ascii]

theorem zero_mem_ofText_iff (s : String) : 0 ∈ ofText s ↔ '\x00' ∈ s.toList := by
  have nul : ('\x00').toNat < 128 := by decide
  exact byte_mem_ofText_iff nul s

theorem ofText_of_text? {bytes : Bytes} {s : String} (read : bytes.text? = some s) :
    ofText s = bytes := by
  unfold text? String.fromUTF8? at read
  split at read
  · obtain rfl := Option.some.inj read
    simp [ofText, String.fromUTF8]
  · simp at read

theorem text?_ofText (s : String) : text? (ofText s) = some s := by
  unfold text? ofText String.fromUTF8?
  rw [Array.toArray_toList, String.toUTF8_eq_toByteArray, dif_pos s.isValidUTF8]
  rfl

/-- The bytes that are ASCII characters. -/
def asciiOnly (bytes : Bytes) : Bytes := bytes.filter (· < 0x80)

/-- The bytes of the characters that are ASCII. -/
def asciiOf (cs : List Char) : Bytes := (cs.filter (·.toNat < 128)).map byte

theorem asciiOnly_append (first second : Bytes) :
    asciiOnly (first ++ second) = asciiOnly first ++ asciiOnly second :=
  List.filter_append ..

theorem asciiOf_append (first second : List Char) :
    asciiOf (first ++ second) = asciiOf first ++ asciiOf second := by
  simp [asciiOf]

/-- An encoded character is its own byte if it is ASCII, and has no ASCII bytes otherwise. -/
theorem asciiOnly_utf8EncodeChar (c : Char) :
    asciiOnly (String.utf8EncodeChar c) = asciiOf [c] := by
  have same : c.toNat = c.val.toNat := rfl
  have bound : c.val.toNat < 0x110000 := by
    have := c.valid
    omega
  have small (n : Nat) : UInt8.ofNat n < 0x80 ↔ n % 256 < 128 := by
    rw [UInt8.lt_iff_toNat_lt, UInt8.toNat_ofNat']
    rfl
  by_cases ascii : c.val.toNat ≤ 127
  · have here : UInt8.ofNat c.val.toNat < 0x80 := (small _).2 (by omega)
    have size : c.toNat < 128 := by omega
    have encoded : String.utf8EncodeChar c = [UInt8.ofNat c.val.toNat] := by
      rw [String.utf8EncodeChar]
      exact if_pos ascii
    simp only [encoded, asciiOnly, asciiOf, List.filter_cons, List.filter_nil, here, size,
      decide_true, ↓reduceIte]
    rfl
  · have size : ¬ c.toNat < 128 := by omega
    have none : asciiOf [c] = [] := by simp [asciiOf, size]
    rw [none, asciiOnly, List.filter_eq_nil_iff, String.utf8EncodeChar]
    split_ifs <;> simp only [List.mem_cons, List.not_mem_nil, or_false, decide_eq_true_eq] <;>
      rintro b (rfl | rfl | rfl | rfl) <;> rw [small] <;> omega

theorem asciiOnly_ofText (s : String) : asciiOnly (ofText s) = asciiOf s.toList := by
  rw [ofText_eq_flatMap]
  induction s.toList with
  | nil => rfl
  | cons c cs ih =>
    rw [List.flatMap_cons, asciiOnly_append, ih, asciiOnly_utf8EncodeChar, ← asciiOf_append]
    rfl

/-- Text that is read of bytes has the same ASCII characters. -/
theorem asciiOf_text? {bytes : Bytes} {s : String} (read : bytes.text? = some s) :
    asciiOf s.toList = asciiOnly bytes := by
  rw [← asciiOnly_ofText, ofText_of_text? read]

variable {x : Char}

theorem not_mem_text? (ascii : x.toNat < 128) {bytes : Bytes} {s : String} (free : byte x ∉ bytes)
    (read : bytes.text? = some s) : x ∉ s.toList := by
  rwa [← byte_mem_ofText_iff ascii, ofText_of_text? read]

/-! ## Ill-formed bytes -/

theorem toNat_and_mask (b : UInt8) :
    (b &&& 0x3F).toNat = b.toNat % 64 ∧ (b &&& 0x1F).toNat = b.toNat % 32 ∧
      (b &&& 0x0F).toNat = b.toNat % 16 ∧ (b &&& 0x07).toNat = b.toNat % 8 :=
  ⟨Nat.and_two_pow_sub_one_eq_mod _ 6, Nat.and_two_pow_sub_one_eq_mod _ 5,
    Nat.and_two_pow_sub_one_eq_mod _ 4, Nat.and_two_pow_sub_one_eq_mod _ 3⟩

theorem toNat_ofNat {n : Nat} (scalar : n.isValidChar) : (Char.ofNat n).toNat = n := by
  rw [Char.ofNat, dif_pos scalar]
  rfl

theorem ofNat_ne {n : Nat} (scalar : n.isValidChar) (other : n ≠ x.toNat) : Char.ofNat n ≠ x := by
  rw [Ne, ← Char.toNat_inj, toNat_ofNat scalar]
  exact other

theorem asciiOf_ofNat {n : Nat} (scalar : n.isValidChar) (large : 128 ≤ n) :
    asciiOf [Char.ofNat n] = [] := by
  have size : ¬ (Char.ofNat n).toNat < 128 := by
    rw [toNat_ofNat scalar]
    omega
  simp [asciiOf, size]

/-- The bits of a character of which one byte is missing: whatever completes it is a scalar value
    that is not ASCII. -/
def IsLast (bits : Nat) : Prop := 2 ≤ bits ∧ bits < 0x4400 ∧ (bits < 0x360 ∨ 0x380 ≤ bits)

/-- The bits of a character of which two bytes are missing, when the next of them may be any. -/
def IsLastButOne (bits : Nat) : Prop := 0x10 ≤ bits ∧ bits < 0x110

namespace Pending

def more (p : Pending) (b : UInt8) : Nat := p.bits * 64 + b.toNat % 64

/-- The next byte is not ASCII, and whatever completes the character is a scalar value that is not
    ASCII. -/
def Sound (p : Pending) : Prop :=
  0x80 ≤ p.low ∧
  ((p.missing = 1 ∧ IsLast p.bits) ∨
  (p.missing = 2 ∧ ∀ b, p.low ≤ b → b ≤ p.high → IsLast (p.more b)) ∨
  (p.missing = 3 ∧ ∀ b, p.low ≤ b → b ≤ p.high → IsLastButOne (p.more b)))

end Pending

/-- A byte is an ASCII character or begins one that is not. -/
theorem sound_of_start? {b : UInt8} {p : Pending} (started : Pending.start? b = some p) :
    (p.missing = 0 ∧ p.bits = b.toNat ∧ b < 0x80) ∨ (¬ b < 0x80 ∧ p.Sound) := by
  obtain ⟨-, mask5, mask4, mask3⟩ := toNat_and_mask b
  unfold Pending.start? at started
  simp only [UInt8.lt_iff_toNat_lt, beq_iff_eq, ← UInt8.toNat_inj, UInt8.reduceToNat] at started ⊢
  split_ifs at started <;> simp only [Option.some.injEq] at started <;> subst started
  · exact .inl ⟨rfl, rfl, by assumption⟩
  all_goals
    right
    refine ⟨by assumption, ?_⟩
    simp only [Pending.Sound, Pending.more, IsLast, IsLastButOne, UInt8.le_iff_toNat_le,
      UInt8.reduceToNat, mask5, mask4, mask3]
  · exact ⟨by omega, .inl ⟨trivial, by omega⟩⟩
  · exact ⟨by omega, .inr (.inl ⟨trivial, fun _ _ _ => by omega⟩)⟩
  · exact ⟨by omega, .inr (.inl ⟨trivial, fun _ _ _ => by omega⟩)⟩
  · exact ⟨by omega, .inr (.inl ⟨trivial, fun _ _ _ => by omega⟩)⟩
  · exact ⟨by omega, .inr (.inr ⟨trivial, fun _ _ _ => by omega⟩)⟩
  · exact ⟨by omega, .inr (.inr ⟨trivial, fun _ _ _ => by omega⟩)⟩
  · exact ⟨by omega, .inr (.inr ⟨trivial, fun _ _ _ => by omega⟩)⟩

theorem asciiOf_replacement : asciiOf [replacement] = [] := by decide

theorem lossyStart_sound (b : UInt8) :
    asciiOf (lossyStart b).1 = asciiOnly [b] ∧ ∀ p, (lossyStart b).2 = some p → p.Sound := by
  have large (other : ¬ b < 0x80) : asciiOnly [b] = [] := by simp [asciiOnly, other]
  unfold lossyStart
  cases started : Pending.start? b with
  | none =>
    have other : ¬ b < 0x80 := by
      intro small
      simp [Pending.start?, small] at started
    simp [large other, asciiOf_replacement]
  | some p =>
    obtain ⟨done, bits, small⟩ | ⟨other, sound⟩ := sound_of_start? started
    · have size : b.toNat < 128 := small
      have scalar : b.toNat.isValidChar := .inl (by omega)
      have same : byte (Char.ofNat b.toNat) = b := by
        rw [byte, toNat_ofNat scalar, UInt8.ofNat_toNat]
      simp [done, bits, asciiOf, asciiOnly, small, toNat_ofNat scalar, size, same]
    · have more : p.missing ≠ 0 := by
        obtain ⟨-, ⟨one, -⟩ | ⟨two, -⟩ | ⟨three, -⟩⟩ := sound <;> omega
      simpa [more, large other] using ⟨rfl, sound⟩

theorem lossyStep_sound {state : Option Pending} (before : ∀ p, state = some p → p.Sound)
    (b : UInt8) :
    asciiOf (lossyStep state b).1 = asciiOnly [b] ∧
      ∀ p, (lossyStep state b).2 = some p → p.Sound := by
  cases state with
  | none => exact lossyStart_sound b
  | some p =>
    have begins := lossyStart_sound b
    obtain ⟨above, sound⟩ := before p rfl
    unfold lossyStep
    simp only [(toNat_and_mask b).1]
    by_cases inside : p.low ≤ b ∧ b ≤ p.high
    · have large : asciiOnly [b] = [] := by
        have other : ¬ b < 0x80 := UInt8.not_lt.2 (UInt8.le_trans above inside.1)
        simp [asciiOnly, other]
      rw [if_pos inside, large]
      obtain ⟨one, last⟩ | ⟨two, last⟩ | ⟨three, last⟩ := sound
      · rw [if_pos one]
        obtain ⟨low, high, gap⟩ := last
        have scalar : (p.bits * 64 + b.toNat % 64).isValidChar := by
          show _ < 0xD800 ∨ 0xDFFF < _ ∧ _ < 0x110000
          omega
        exact ⟨asciiOf_ofNat scalar (by omega), by simp⟩
      · rw [if_neg (by omega)]
        refine ⟨rfl, fun q next => ?_⟩
        obtain rfl := Option.some.inj next
        exact ⟨UInt8.le_refl _, .inl ⟨by simp [two], last b inside.1 inside.2⟩⟩
      · rw [if_neg (by omega)]
        refine ⟨rfl, fun q next => ?_⟩
        obtain rfl := Option.some.inj next
        have lastButOne := last b inside.1 inside.2
        refine ⟨UInt8.le_refl _, .inr (.inl ⟨by simp [three], fun x _ _ => ?_⟩)⟩
        simp only [IsLast, IsLastButOne, Pending.more] at lastButOne ⊢
        omega
    · rw [if_neg inside, ← List.singleton_append, asciiOf_append, asciiOf_replacement]
      exact begins

theorem asciiOf_lossyFrom {state : Option Pending} (before : ∀ p, state = some p → p.Sound)
    (bytes : Bytes) : asciiOf (lossyFrom state bytes) = asciiOnly bytes := by
  induction bytes generalizing state with
  | nil =>
    cases state with
    | none => rfl
    | some p => exact asciiOf_replacement
  | cons b bytes ih =>
    obtain ⟨here, after⟩ := lossyStep_sound before b
    rw [lossyFrom, asciiOf_append, here, ih after, ← asciiOnly_append]
    rfl

/-- Whatever bytes are read as, the ASCII characters are those that are there. -/
theorem asciiOf_lossyText (bytes : Bytes) : asciiOf bytes.lossyText.toList = asciiOnly bytes := by
  unfold lossyText
  cases read : bytes.text? with
  | some s => exact asciiOf_text? read
  | none => simpa using asciiOf_lossyFrom (by simp) bytes

theorem not_mem_lossyText (ascii : x.toNat < 128) {bytes : Bytes} (free : byte x ∉ bytes) :
    x ∉ bytes.lossyText.toList := by
  intro member
  have listed : byte x ∈ asciiOf bytes.lossyText.toList :=
    List.mem_map_of_mem (List.mem_filter.2 ⟨member, by simpa using ascii⟩)
  rw [asciiOf_lossyText] at listed
  exact free (List.mem_filter.1 listed).1

end Bytes

/-! ## Escaping -/

namespace Markup

theorem nul_mem_escapeChar_iff (c : Char) : '\x00' ∈ escapeChar c ↔ c = '\x00' := by
  unfold escapeChar
  split <;> simp [eq_comm]

theorem nul_mem_escapeText_iff (s : String) : '\x00' ∈ (escapeText s).toList ↔ '\x00' ∈ s.toList := by
  simp [escapeText, escape, List.mem_flatMap, nul_mem_escapeChar_iff]

/-- There are no brackets and quotation marks in what is escaped. -/
theorem not_mem_escapeText {x : Char} (mark : x ∈ ['<', '>', '"', '\'']) (s : String) :
    x ∉ (escapeText s).toList := by
  have escaped (c : Char) : x ∉ escapeChar c := by
    simp only [List.mem_cons, List.not_mem_nil, or_false] at mark
    unfold escapeChar
    split
    case h_6 => rw [List.mem_singleton]; grind
    all_goals obtain rfl | rfl | rfl | rfl := mark <;> decide
  simp [escapeText, escape, List.mem_flatMap, escaped]

end Markup
end MessageConformance
