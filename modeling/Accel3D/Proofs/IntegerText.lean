/-
Whole numbers in traces.

A value that is marked neither as hexadecimal nor as a single is read as a whole number in decimal. A plain one may have
a plus sign and has to fit in a word. Behind a minus sign stands a number of 32 bits in two's complement, which is then
negated. It is read with the sign that such a number may have. So a second sign is accepted, and the least number of 32
bits, whose magnitude is no such number, is refused; all other whole numbers of the range are read as they are written.

Results: `readNatural_eq_ok_iff` and `readInteger_eq_ok_iff` (what the two readers of numbers accept),
`isDecimal_toString` (numbers as they are printed), `readValue_eq_ok_iff` and `readValue_toString` (which values are
read), `integer_literals` (which of them as they are written), `integer_literal_signs` (a number with two signs that is
read, and one with one sign that is refused).
-/
import Mathlib.Algebra.Group.Int.Defs
import Mathlib.Algebra.Group.Nat.Defs
import Mathlib.Data.List.Basic
import Mathlib.Tactic.SplitIfs
import Accel3D.Trace.Literal

namespace Accel3D

namespace Text

/-! ## Digits -/

theorem isAlphanum_iff (c : Char) : c.isAlphanum = true ↔
    65 ≤ c.toNat ∧ c.toNat ≤ 90 ∨ 97 ≤ c.toNat ∧ c.toNat ≤ 122 ∨ 48 ≤ c.toNat ∧ c.toNat ≤ 57 := by
  have hranges : c.isAlphanum =
      (decide ('A'.val ≤ c.val ∧ c.val ≤ 'Z'.val) || (decide ('a'.val ≤ c.val) && decide (c.val ≤ 'z'.val)) ||
        (decide ('0'.val ≤ c.val) && decide (c.val ≤ '9'.val))) := rfl
  simp only [hranges, Bool.or_eq_true, Bool.and_eq_true, decide_eq_true_eq, UInt32.le_iff_toNat_le, or_assoc]
  exact Iff.rfl

theorem digitIn?_lt {base d : Nat} {c : Char} (h : digitIn? base c = some d) : d < base := by
  simpa using (Option.filter_eq_some_iff.1 h).2

theorem isAlphanum_of_digit {base : Nat} {c : Char} (h : (digitIn? base c).isSome) : c.isAlphanum = true := by
  rw [isAlphanum_iff]
  have hvalue : (digitValue? c).isSome := by
    obtain ⟨d, hd⟩ := Option.isSome_iff_exists.1 h
    exact Option.isSome_iff_exists.2 ⟨d, (Option.filter_eq_some_iff.1 hd).1⟩
  unfold digitValue? at hvalue
  simp only [Bool.and_eq_true, decide_eq_true_eq, Char.le_def, UInt32.le_iff_toNat_le] at hvalue
  split_ifs at hvalue with h1 h2 h3
  · exact .inr (.inr h1)
  · exact .inr (.inl h2)
  · exact .inl h3
  · cases hvalue

/-- digits of a base, at least one -/
structure IsNumeral (base : Nat) (digits : List Char) : Prop where
  nonempty : digits ≠ []
  digital : ∀ c ∈ digits, (digitIn? base c).isSome

/-- a whole number in decimal, perhaps with a sign -/
inductive IsDecimal : Int → List Char → Prop
  | plain {digits : List Char} (numeral : IsNumeral 10 digits) : IsDecimal (digitsValue 10 digits) digits
  | plus {digits : List Char} (numeral : IsNumeral 10 digits) : IsDecimal (digitsValue 10 digits) ('+' :: digits)
  | minus {digits : List Char} (numeral : IsNumeral 10 digits) : IsDecimal (-(digitsValue 10 digits : Int)) ('-' :: digits)

/-! ## What the readers of numbers accept -/

theorem readDigits_eq {base bound : Nat} (fault : NumeralFault) {cs : List Char}
    (hdigits : ∀ c ∈ cs, (digitIn? base c).isSome) (n : Nat) (hbase : 0 < base)
    (hbound : cs.foldl (fun n c => base * n + (digitIn? base c).getD 0) n < bound) :
    readDigits base bound fault cs n = .ok (cs.foldl (fun n c => base * n + (digitIn? base c).getD 0) n) := by
  have hgrow : ∀ (cs : List Char) (n : Nat), n ≤ cs.foldl (fun n c => base * n + (digitIn? base c).getD 0) n := by
    intro cs
    induction cs with
    | nil => exact fun n => Nat.le_refl n
    | cons c cs ih =>
      intro n
      calc n ≤ base * n := Nat.le_mul_of_pos_left n hbase
        _ ≤ base * n + (digitIn? base c).getD 0 := Nat.le_add_right _ _
        _ ≤ _ := ih _
  induction cs generalizing n with
  | nil => rfl
  | cons c cs ih =>
    obtain ⟨d, hd⟩ := Option.isSome_iff_exists.1 (hdigits c List.mem_cons_self)
    simp only [List.foldl_cons, hd, Option.getD_some] at hbound ⊢
    have hnext : base * n + d < bound := Nat.lt_of_le_of_lt (hgrow cs _) hbound
    simp only [readDigits, hd, if_pos hnext]
    exact ih (fun e he => hdigits e (List.mem_cons_of_mem c he)) _ hbound

theorem readDigits_eq_ok_iff {base bound : Nat} (fault : NumeralFault) (hbase : 0 < base) {cs : List Char} {n m : Nat}
    (hn : n < bound) : readDigits base bound fault cs n = .ok m ↔
      (∀ c ∈ cs, (digitIn? base c).isSome) ∧ cs.foldl (fun n c => base * n + (digitIn? base c).getD 0) n = m ∧
        m < bound := by
  constructor
  · induction cs generalizing n with
    | nil =>
      intro h
      cases h
      exact ⟨by simp, rfl, hn⟩
    | cons c cs ih =>
      intro h
      rw [readDigits] at h
      cases hd : digitIn? base c with
      | none =>
        rw [hd] at h
        cases h
      | some d =>
        simp only [hd] at h
        split_ifs at h with hlt
        obtain ⟨hdigits, hvalue, hbound⟩ := ih hlt h
        refine ⟨List.forall_mem_cons.2 ⟨by rw [hd]; rfl, hdigits⟩, ?_, hbound⟩
        rw [List.foldl_cons, hd]
        exact hvalue
  · rintro ⟨hdigits, rfl, hbound⟩
    exact readDigits_eq fault hdigits n hbase hbound

/-- no sign is a digit -/
theorem IsNumeral.head_ne {base : Nat} {c : Char} {rest : List Char} (h : IsNumeral base (c :: rest)) :
    c ≠ '+' ∧ c ≠ '-' := by
  have hc := isAlphanum_of_digit (h.digital c List.mem_cons_self)
  constructor <;> rintro rfl <;> exact absurd hc (by decide)

/-- a numeral without a sign is read as the number that it writes, if it is below the bound -/
theorem readNatural_eq {base bound : Nat} {cs : List Char} (h : IsNumeral base cs) (hbase : 0 < base)
    (hbound : digitsValue base cs < bound) : readNatural base bound cs = .ok (digitsValue base cs) := by
  obtain ⟨c, cs, rfl⟩ := List.exists_cons_of_ne_nil h.nonempty
  have hplus := h.head_ne.1
  rw [readNatural]
  · exact readDigits_eq .tooLarge h.digital 0 hbase hbound
  · simp
  · intro h; cases h; exact hplus rfl
  · intro d h; cases h; exact hplus rfl

/-- a number is read from digits that write it, with or without a plus sign -/
theorem readNatural_eq_ok_iff {base bound : Nat} (hbase : 0 < base) (hbound : 0 < bound) {cs : List Char} {m : Nat} :
    readNatural base bound cs = .ok m ↔
      ∃ digits, (cs = digits ∨ cs = '+' :: digits) ∧ IsNumeral base digits ∧ digitsValue base digits = m ∧ m < bound := by
  have hread : ∀ {digits : List Char}, digits ≠ [] → (readDigits base bound .tooLarge digits 0 = .ok m ↔
      IsNumeral base digits ∧ digitsValue base digits = m ∧ m < bound) := by
    intro digits hne
    rw [readDigits_eq_ok_iff .tooLarge hbase hbound]
    exact ⟨fun h => ⟨⟨hne, h.1⟩, h.2⟩, fun h => ⟨h.1.digital, h.2⟩⟩
  constructor
  · intro h
    unfold readNatural at h
    split at h
    next => cases h
    next => cases h
    next digits hne => exact ⟨digits, .inr rfl, (hread hne).1 h⟩
    next hempty _ _ => exact ⟨cs, .inl rfl, (hread hempty).1 h⟩
  · rintro ⟨digits, rfl | rfl, hnumeral, hvalue, hlt⟩
    · rw [← hvalue]
      exact readNatural_eq hnumeral hbase (hvalue ▸ hlt)
    · rw [readNatural]
      · exact (hread hnumeral.nonempty).2 ⟨hnumeral, hvalue, hlt⟩
      · exact hnumeral.nonempty

theorem isDecimal_natCast {digits : List Char} (h : IsNumeral 10 digits) {cs : List Char}
    (hcs : cs = digits ∨ cs = '+' :: digits) : IsDecimal (digitsValue 10 digits) cs := by
  rcases hcs with rfl | rfl
  · exact .plain h
  · exact .plus h

/-- a number in two's complement is read from decimal text that writes it -/
theorem readInteger_eq_ok_iff {bits : Nat} {cs : List Char} {v : Int} :
    readInteger bits cs = .ok v ↔ IsDecimal v cs ∧ -2 ^ (bits - 1) ≤ v ∧ v < 2 ^ (bits - 1) := by
  have hmap : ∀ {f : Int → Int} {x : Except NumeralFault Nat},
      Except.map f (do let n ← x; pure (n : Int)) = .ok v ↔ ∃ n : Nat, x = .ok n ∧ f n = v := by
    intro f x
    cases x <;> simp [Except.map, bind, Except.bind, pure, Except.pure]
  have hpower : (2 : Int) ^ (bits - 1) = ((2 ^ (bits - 1) : Nat) : Int) := by simp
  have hpos := Nat.two_pow_pos (bits - 1)
  rw [hpower]
  constructor
  · intro h
    unfold readInteger at h
    split at h
    next => cases h
    next digits hne =>
      obtain ⟨n, hn, rfl⟩ := hmap.1 h
      obtain ⟨hdigits, rfl, hlt⟩ := (readDigits_eq_ok_iff .tooSmall (by decide) (Nat.succ_pos _)).1 hn
      refine ⟨.minus ⟨hne, hdigits⟩, ?_, ?_⟩ <;> omega
    next =>
      obtain ⟨n, hn, rfl⟩ := hmap.1 h
      obtain ⟨digits, hcs, hnumeral, rfl, hlt⟩ := (readNatural_eq_ok_iff (by decide) hpos).1 hn
      refine ⟨isDecimal_natCast hnumeral hcs, ?_, ?_⟩ <;> omega
  · rintro ⟨hdecimal, hlow, hhigh⟩
    have hnatural : ∀ {digits : List Char}, IsNumeral 10 digits → (cs = digits ∨ cs = '+' :: digits) →
        (digitsValue 10 digits : Int) < (2 ^ (bits - 1) : Nat) →
        readInteger bits cs = .ok (digitsValue 10 digits : Int) := by
      intro digits hnumeral hcs hlt
      have hread : readNatural 10 (2 ^ (bits - 1)) cs = .ok (digitsValue 10 digits) :=
        (readNatural_eq_ok_iff (by decide) hpos).2 ⟨digits, hcs, hnumeral, rfl, by omega⟩
      have hsign : ∀ rest, cs ≠ '-' :: rest := by
        rintro rest rfl
        rcases hcs with rfl | h
        · exact absurd rfl hnumeral.head_ne.2
        · cases h
      rw [readInteger, hread]
      · rfl
      · exact fun h => hsign [] h
      · exact fun ds h => hsign ds h
    cases hdecimal with
    | plain hnumeral => exact hnatural hnumeral (.inl rfl) hhigh
    | plus hnumeral => exact hnatural hnumeral (.inr rfl) hhigh
    | @minus digits hnumeral =>
      rw [readInteger, (readDigits_eq_ok_iff .tooSmall (by decide) (Nat.succ_pos _)).2
        ⟨hnumeral.digital, rfl, (by show digitsValue 10 digits < _; omega)⟩]
      · rfl
      · exact hnumeral.nonempty

/-! ## Numbers as they are printed -/

theorem digitIn?_of_isDigit {c : Char} (h : c.isDigit = true) : digitIn? 10 c = some (c.toNat - '0'.toNat) := by
  have hrange : 48 ≤ c.toNat ∧ c.toNat ≤ 57 := by simpa [Char.isDigit, UInt32.le_iff_toNat_le] using h
  have hvalue : digitValue? c = some (c.toNat - 48) := by
    rw [digitValue?, if_pos]
    simpa [Char.le_def, UInt32.le_iff_toNat_le] using hrange
  rw [digitIn?, hvalue, Option.filter_some, if_pos]
  · rfl
  · exact decide_eq_true (by omega)

theorem isNumeral_toDigits (n : Nat) :
    IsNumeral 10 (Nat.toDigits 10 n) ∧ digitsValue 10 (Nat.toDigits 10 n) = n := by
  have hdigit : ∀ c ∈ Nat.toDigits 10 n, digitIn? 10 c = some (c.toNat - '0'.toNat) := fun c hc =>
    digitIn?_of_isDigit (Nat.isDigit_of_mem_toDigits (by decide) (by decide) hc)
  refine ⟨⟨Nat.toDigits_ne_nil, fun c hc => ?_⟩, ?_⟩
  · rw [hdigit c hc]
    rfl
  · calc digitsValue 10 (Nat.toDigits 10 n) = Nat.ofDigitChars 10 (Nat.toDigits 10 n) 0 := by
          refine List.foldl_ext _ _ 0 fun m c hc => ?_
          rw [hdigit c hc, Option.getD_some]
      _ = n := Nat.ofDigitChars_toDigits (by decide) (by decide)

/-- a number as it is printed is decimal text that writes it -/
theorem isDecimal_toString (v : Int) : IsDecimal v (toString v).toList := by
  cases v with
  | ofNat n =>
    obtain ⟨hnumeral, hvalue⟩ := isNumeral_toDigits n
    have htext : (toString (Int.ofNat n)).toList = Nat.toDigits 10 n := Nat.toList_repr
    have hplain := IsDecimal.plain hnumeral
    rwa [hvalue, ← htext] at hplain
  | negSucc n =>
    obtain ⟨hnumeral, hvalue⟩ := isNumeral_toDigits (n + 1)
    have htext : (toString (Int.negSucc n)).toList = '-' :: Nat.toDigits 10 (n + 1) := by
      show ("-" ++ (n + 1).repr).toList = _
      rw [String.toList_append, Nat.toList_repr]
      rfl
    have hminus := IsDecimal.minus hnumeral
    rw [hvalue, ← htext] at hminus
    exact hminus

end Text

namespace Trace

open Text

/-! ## Values -/

/-- a value that has neither the mark of hexadecimal digits nor that of a single -/
structure IsUnmarked (value : List Char) : Prop where
  notHex : ¬['0', 'x'] <+: value ∧ ¬['0', 'X'] <+: value
  notSingle : ¬['f'] <:+ value

theorem readValue_of_isUnmarked {value : List Char} (h : IsUnmarked value) : readValue value = readDecimal value := by
  have hhex : stripHexMark value = none := by
    unfold stripHexMark
    split
    next rest => exact absurd (List.prefix_append ['0', 'x'] rest) h.notHex.1
    next rest => exact absurd (List.prefix_append ['0', 'X'] rest) h.notHex.2
    next => rfl
  have hsingle : stripSingleMark value = none := by
    rw [stripSingleMark, if_neg]
    intro hlast
    obtain ⟨front, hfront⟩ := List.getLast?_eq_some_iff.1 hlast
    exact h.notSingle ⟨front, hfront.symm⟩
  rw [readValue, hhex, hsingle]

theorem isUnmarked_of_isDecimal {v : Int} {value : List Char} (h : IsDecimal v value) : IsUnmarked value := by
  have hchars : ∀ c ∈ value, c ≠ 'x' ∧ c ≠ 'X' ∧ c ≠ 'f' := by
    have hdigit : ∀ {digits : List Char}, IsNumeral 10 digits → ∀ c ∈ digits, c ≠ 'x' ∧ c ≠ 'X' ∧ c ≠ 'f' := by
      intro digits hnumeral c hc
      have hd := hnumeral.digital c hc
      refine ⟨?_, ?_, ?_⟩ <;> rintro rfl <;> exact absurd hd (by decide)
    cases h with
    | plain hnumeral => exact hdigit hnumeral
    | plus hnumeral => exact List.forall_mem_cons.2 ⟨by decide, hdigit hnumeral⟩
    | minus hnumeral => exact List.forall_mem_cons.2 ⟨by decide, hdigit hnumeral⟩
  refine ⟨⟨fun hmark => ?_, fun hmark => ?_⟩, fun hmark => ?_⟩
  · exact absurd rfl (hchars 'x' (hmark.subset (by simp))).1
  · exact absurd rfl (hchars 'X' (hmark.subset (by simp))).2.1
  · exact absurd rfl (hchars 'f' (hmark.subset (by simp))).2.2

def IsSigned (value : List Char) : Prop := value.head? = some '+' ∨ value.head? = some '-'

theorem readDecimal_natural {value : List Char} (h : ∀ rest, value ≠ '-' :: rest) {w : UInt32} :
    readDecimal value = .ok w ↔ ∃ v, IsDecimal v value ∧ 0 ≤ v ∧ v < 2 ^ 32 ∧ w = UInt32.ofInt v := by
  have hread : readDecimal value =
      ((readNatural 10 (2 ^ 32) value).map UInt32.ofNat).mapError (.decimal (String.ofList value)) := by
    unfold readDecimal
    split
    next rest => exact absurd rfl (h rest)
    next => rfl
  rw [hread]
  constructor
  · intro hok
    cases hn : readNatural 10 (2 ^ 32) value with
    | error fault =>
      rw [hn] at hok
      cases hok
    | ok n =>
      rw [hn] at hok
      cases hok
      obtain ⟨digits, hvalue, hnumeral, rfl, hlt⟩ := (readNatural_eq_ok_iff (by decide) (by decide)).1 hn
      exact ⟨_, isDecimal_natCast hnumeral hvalue, Int.natCast_nonneg _, by omega, (ofInt32_natCast _).symm⟩
  · rintro ⟨v, hdecimal, -, hlt, rfl⟩
    have hnatural : ∀ {digits : List Char}, IsNumeral 10 digits → (value = digits ∨ value = '+' :: digits) →
        (digitsValue 10 digits : Int) < 2 ^ 32 → ((readNatural 10 (2 ^ 32) value).map UInt32.ofNat).mapError
          (LiteralError.decimal (String.ofList value)) = .ok (UInt32.ofInt (digitsValue 10 digits : Int)) := by
      intro digits hnumeral hvalue hlt
      rw [(readNatural_eq_ok_iff (by decide) (by decide)).2 ⟨digits, hvalue, hnumeral, rfl, by omega⟩, ofInt32_natCast]
      rfl
    cases hdecimal with
    | plain hnumeral => exact hnatural hnumeral (.inl rfl) hlt
    | plus hnumeral => exact hnatural hnumeral (.inr rfl) hlt
    | minus hnumeral => exact absurd rfl (h _)

/-- behind a minus sign stands a number of 32 bits in two's complement, with or without a sign of its own -/
theorem readDecimal_negative {rest : List Char} {w : UInt32} :
    readDecimal ('-' :: rest) = .ok w ↔
      ∃ v, IsDecimal v rest ∧ -2 ^ 31 ≤ v ∧ v < 2 ^ 31 ∧ w = UInt32.ofInt (-v) := by
  rw [readDecimal]
  constructor
  · intro hok
    cases hv : readInteger 32 rest with
    | error fault =>
      rw [hv] at hok
      cases hok
    | ok v =>
      rw [hv] at hok
      cases hok
      obtain ⟨hdecimal, hlow, hhigh⟩ := readInteger_eq_ok_iff.1 hv
      exact ⟨v, hdecimal, hlow, hhigh, rfl⟩
  · rintro ⟨v, hdecimal, hlow, hhigh, rfl⟩
    rw [readInteger_eq_ok_iff.2 ⟨hdecimal, hlow, hhigh⟩]
    rfl

theorem isDecimal_negative {v : Int} {rest : List Char} :
    IsDecimal v ('-' :: rest) ↔ IsNumeral 10 rest ∧ v = -(digitsValue 10 rest : Int) := by
  constructor
  · intro h
    cases h with
    | plain hnumeral => exact absurd rfl hnumeral.head_ne.2
    | minus hnumeral => exact ⟨hnumeral, rfl⟩
  · rintro ⟨hnumeral, rfl⟩
    exact .minus hnumeral

/-- a minus sign with decimal text behind it that has a sign of its own and writes a number of 32 bits -/
def IsTwiceSigned (v : Int) (value : List Char) : Prop :=
  ∃ rest, value = '-' :: rest ∧ IsSigned rest ∧ IsDecimal v rest ∧ -2 ^ 31 ≤ v ∧ v < 2 ^ 31

/-- whether a value is read just if it is decimal text of a number from -2^31 up to 2^32, and then as that number -/
def IsReadAsWritten (value : List Char) : Prop :=
  ∀ w, readValue value = .ok w ↔ ∃ v, IsDecimal v value ∧ -2 ^ 31 ≤ v ∧ v < 2 ^ 32 ∧ w = UInt32.ofInt v

theorem IsTwiceSigned.not_isDecimal {v : Int} {value : List Char} (h : IsTwiceSigned v value) (u : Int) :
    ¬IsDecimal u value := by
  obtain ⟨rest, rfl, hsigned, -⟩ := h
  intro hdecimal
  have hnumeral := (isDecimal_negative.1 hdecimal).1
  obtain ⟨c, rest, rfl⟩ := List.exists_cons_of_ne_nil hnumeral.nonempty
  rcases hsigned with hc | hc
  · exact hnumeral.head_ne.1 (Option.some.inj hc)
  · exact hnumeral.head_ne.2 (Option.some.inj hc)

/-- decimal text with a number below 0 begins with a minus sign, and writes no other number -/
theorem isDecimal_of_neg {u v : Int} {value : List Char} (hu : IsDecimal u value) (hneg : u < 0)
    (hv : IsDecimal v value) : v = u := by
  cases hu with
  | plain hnumeral => omega
  | plus hnumeral => omega
  | minus hnumeral => exact (isDecimal_negative.1 hv).2

/-- which whole numbers are read, and as what -/
theorem readValue_eq_ok_iff {value : List Char} (hvalue : IsUnmarked value) {w : UInt32} : readValue value = .ok w ↔
    (∃ v, IsDecimal v value ∧ -2 ^ 31 < v ∧ v < 2 ^ 32 ∧ w = UInt32.ofInt v) ∨
    ∃ v, IsTwiceSigned v value ∧ w = UInt32.ofInt (-v) := by
  rw [readValue_of_isUnmarked hvalue]
  by_cases hminus : ∃ rest, value = '-' :: rest
  · obtain ⟨rest, rfl⟩ := hminus
    rw [readDecimal_negative]
    constructor
    · rintro ⟨v, hdecimal, hlow, hhigh, rfl⟩
      cases hdecimal with
      | plain hnumeral => exact .inl ⟨_, isDecimal_negative.2 ⟨hnumeral, rfl⟩, by omega, by omega, rfl⟩
      | plus hnumeral => exact .inr ⟨_, ⟨_, rfl, .inl rfl, .plus hnumeral, hlow, hhigh⟩, rfl⟩
      | minus hnumeral => exact .inr ⟨_, ⟨_, rfl, .inr rfl, .minus hnumeral, hlow, hhigh⟩, rfl⟩
    · rintro (⟨v, hdecimal, hlow, -, rfl⟩ | ⟨v, ⟨rest', heq, -, hdecimal, hlow, hhigh⟩, rfl⟩)
      · obtain ⟨hnumeral, rfl⟩ := isDecimal_negative.1 hdecimal
        exact ⟨_, .plain hnumeral, by omega, by omega, rfl⟩
      · cases heq
        exact ⟨v, hdecimal, hlow, hhigh, rfl⟩
  · have hplain : ∀ rest, value ≠ '-' :: rest := fun rest heq => hminus ⟨rest, heq⟩
    rw [readDecimal_natural hplain]
    constructor
    · rintro ⟨v, hdecimal, hlow, hhigh, rfl⟩
      exact .inl ⟨v, hdecimal, by omega, hhigh, rfl⟩
    · rintro (⟨v, hdecimal, -, hhigh, rfl⟩ | ⟨v, ⟨rest, heq, -⟩, -⟩)
      · refine ⟨v, hdecimal, ?_, hhigh, rfl⟩
        cases hdecimal with
        | plain hnumeral => exact Int.natCast_nonneg _
        | plus hnumeral => exact Int.natCast_nonneg _
        | minus hnumeral => exact absurd rfl (hplain _)
      · exact absurd heq (hplain rest)

/-- a number of 32 bits in two's complement is read as it is printed, but for the least one -/
theorem readValue_toString {v : Int} (hlow : -2 ^ 31 ≤ v) (hhigh : v < 2 ^ 31) : readValue (toString v).toList =
    if v = -2 ^ 31 then .error (.decimal (toString v) .tooLarge) else .ok (UInt32.ofInt v) := by
  have hdecimal := isDecimal_toString v
  split
  next hleast =>
    subst hleast
    decide +kernel
  next hmore =>
    exact (readValue_eq_ok_iff (isUnmarked_of_isDecimal hdecimal)).2 (.inl ⟨v, hdecimal, by omega, by omega, rfl⟩)

/-- **Which whole numbers are read, and as what.** A value that is marked neither as hexadecimal nor as a single is read
exactly if it is decimal text of a number above -2^31 and below 2^32, and gives that number modulo 2^32; or if it is a
minus sign with decimal text behind it that has a sign of its own and writes a number of 32 bits in two's complement, and
gives the negative of that number. So it is read as it is written unless it writes the least number of 32 bits or is such
a number with two signs. In particular every number of 32 bits in two's complement is read as it is printed, but for the
least one, which is refused. -/
theorem integer_literals {value : List Char} (hvalue : IsUnmarked value) :
    (∀ w, readValue value = .ok w ↔
      (∃ v, IsDecimal v value ∧ -2 ^ 31 < v ∧ v < 2 ^ 32 ∧ w = UInt32.ofInt v) ∨
      ∃ v, IsTwiceSigned v value ∧ w = UInt32.ofInt (-v)) ∧
    (IsReadAsWritten value ↔ ¬IsDecimal (-2 ^ 31) value ∧ ∀ v, ¬IsTwiceSigned v value) ∧
    ∀ v : Int, value = (toString v).toList → -2 ^ 31 ≤ v → v < 2 ^ 31 → readValue value =
      if v = -2 ^ 31 then .error (.decimal (toString v) .tooLarge) else .ok (UInt32.ofInt v) := by
  refine ⟨fun w => readValue_eq_ok_iff hvalue, ⟨fun hread => ⟨fun hleast => ?_, fun v htwice => ?_⟩, ?_⟩, ?_⟩
  · have hok := (hread _).2 ⟨_, hleast, by omega, by omega, rfl⟩
    rcases (readValue_eq_ok_iff hvalue).1 hok with ⟨v, hdecimal, hlow, -⟩ | ⟨v, htwice, -⟩
    · have hv := isDecimal_of_neg hleast (by decide) hdecimal
      omega
    · exact htwice.not_isDecimal _ hleast
  · have hok := (readValue_eq_ok_iff hvalue).2 (.inr ⟨v, htwice, rfl⟩)
    obtain ⟨u, hdecimal, -⟩ := (hread _).1 hok
    exact htwice.not_isDecimal u hdecimal
  · rintro ⟨hleast, htwice⟩ w
    rw [readValue_eq_ok_iff hvalue]
    constructor
    · rintro (⟨v, hdecimal, hlow, hhigh, rfl⟩ | ⟨v, h, -⟩)
      · exact ⟨v, hdecimal, by omega, hhigh, rfl⟩
      · exact absurd h (htwice v)
    · rintro ⟨v, hdecimal, hlow, hhigh, rfl⟩
      have hv : v ≠ -2 ^ 31 := fun heq => hleast (heq ▸ hdecimal)
      exact .inl ⟨v, hdecimal, by omega, hhigh, rfl⟩
  · rintro v rfl hlow hhigh
    exact readValue_toString hlow hhigh

/-- the least number that is read -/
theorem integer_literals_least :
    IsUnmarked "-2147483647".toList ∧ IsDecimal (-2147483647) "-2147483647".toList ∧
      readValue "-2147483647".toList = .ok 0x80000001 ∧ IsReadAsWritten "-2147483647".toList := by
  have hdecimal : IsDecimal (-2147483647) "-2147483647".toList := isDecimal_toString (-2147483647)
  have hunmarked := isUnmarked_of_isDecimal hdecimal
  obtain ⟨hread, hwritten, -⟩ := integer_literals hunmarked
  refine ⟨hunmarked, hdecimal, (hread _).2 (.inl ⟨_, hdecimal, by decide, by decide, by decide⟩),
    hwritten.2 ⟨fun hleast => ?_, fun v h => ?_⟩⟩
  · exact absurd (isDecimal_of_neg hleast (by decide) hdecimal) (by decide)
  · exact h.not_isDecimal _ hdecimal

/-- **A number with two signs is read, and the least number of 32 bits is not.** -/
theorem integer_literal_signs :
    (IsUnmarked "--5".toList ∧ (∀ v, ¬IsDecimal v "--5".toList) ∧ readValue "--5".toList = .ok 5) ∧
    IsUnmarked "-2147483648".toList ∧ IsDecimal (-2 ^ 31) "-2147483648".toList ∧
      readValue "-2147483648".toList = .error (.decimal "-2147483648" .tooLarge) := by
  have hleast : IsDecimal (-2 ^ 31) "-2147483648".toList := isDecimal_toString (-2 ^ 31)
  have htwo : "--5".toList = ['-', '-', '5'] := by decide +kernel
  refine ⟨⟨⟨by decide +kernel, by decide +kernel⟩, fun v h => ?_, by decide +kernel⟩, isUnmarked_of_isDecimal hleast,
    hleast, by decide +kernel⟩
  rw [htwo] at h
  exact absurd rfl (isDecimal_negative.1 h).1.head_ne.2

end Trace
end Accel3D
