/-
Traces are read back as they are written.

A command is written as words on a line, and commands as lines of a text (`Spelled`, `unlines`): values in hexadecimal
behind 0x or in decimal, a register by its name with a digit for the chips. Reading takes the text apart again into the
same lines and words (`lines_unlines`, `words_unwords`), and each value into its word (`IsOperand.value_eq`). A name
leads back to its register, since no two registers have names that differ in case only (`find?_name`): a code of each
name is computed, modulo the least number for which the codes of each revision are all different.

But a register is a word of letters, digits, underscores and dots, and four names have a slash. Their lines are not
recognized.

Results: `find?_name` (names), `readLine_eq` (one line), `read_spelled` (a whole trace), `read_slashed` (a trace that is
not read back).
-/
import Mathlib.Data.List.Forall2
import Mathlib.Data.List.Nodup
import Mathlib.Data.List.TakeWhile
import Mathlib.Tactic.Ring
import Accel3D.Proofs.IntegerText
import Accel3D.Trace.Reader

namespace Accel3D

/-! ## Lines and words -/

namespace Text

/-- words on one line, a space between any two -/
def unwords (ws : List (List Char)) : List Char := [' '].intercalate ws

/-- lines of words as one text, each line ended by a line feed -/
def unlines (lines : List (List (List Char))) : List Char := lines.flatMap fun ws => unwords ws ++ ['\n']

/-- a word is not empty and has no blanks -/
structure IsWord (w : List Char) : Prop where
  nonempty : w ≠ []
  solid : ∀ c ∈ w, isBlank c = false

theorem unwords_cons_cons (w w' : List Char) (ws : List (List Char)) :
    unwords (w :: w' :: ws) = w ++ ' ' :: unwords (w' :: ws) := by
  simp [unwords, List.intercalate]

theorem wordsFrom_append {w : List Char} (h : ∀ c ∈ w, isBlank c = false) (current rest : List Char) :
    wordsFrom current (w ++ rest) = wordsFrom (w.reverse ++ current) rest := by
  induction w generalizing current with
  | nil => rfl
  | cons c w ih =>
    have hc := h c List.mem_cons_self
    have hw : ∀ d ∈ w, isBlank d = false := fun d hd => h d (List.mem_cons_of_mem c hd)
    simp [wordsFrom, hc, ih hw]

/-- the words of a line are those that it was made of -/
theorem words_unwords {ws : List (List Char)} (h : ∀ w ∈ ws, IsWord w) : words (unwords ws) = ws := by
  induction ws with
  | nil => rfl
  | cons w ws ih =>
    have hw := h w List.mem_cons_self
    have hcons : consWord w = List.cons w := by
      funext rest
      simp [consWord, hw.nonempty]
    cases ws with
    | nil =>
      have hlast := wordsFrom_append hw.solid [] []
      simp only [List.append_nil] at hlast
      simp [unwords, words, hlast, wordsFrom, hcons]
    | cons w' ws =>
      have hws := ih fun v hv => h v (List.mem_cons_of_mem w hv)
      rw [unwords_cons_cons, words, wordsFrom_append hw.solid]
      have hblank : isBlank ' ' = true := rfl
      simp only [wordsFrom, hblank, if_true, List.append_nil, List.reverse_reverse, hcons]
      exact congrArg (List.cons w) hws

theorem linesFrom_append {line : List Char} (h : '\n' ∉ line) (current rest : List Char) :
    linesFrom current (line ++ '\n' :: rest) = (current.reverse ++ line) :: linesFrom [] rest := by
  induction line generalizing current with
  | nil => simp [linesFrom]
  | cons c line ih =>
    have hc : c ≠ '\n' := fun e => h (e ▸ List.mem_cons_self)
    have hline : '\n' ∉ line := fun hmem => h (List.mem_cons_of_mem c hmem)
    simp [linesFrom, hc, ih hline]

/-- the lines of a text are those that it was made of, and an empty one behind the last line feed -/
theorem lines_unlines {lines : List (List (List Char))} (h : ∀ ws ∈ lines, '\n' ∉ unwords ws) :
    Text.lines (unlines lines) = lines.map unwords ++ [[]] := by
  induction lines with
  | nil => rfl
  | cons ws lines ih =>
    have hrest := ih fun vs hvs => h vs (List.mem_cons_of_mem ws hvs)
    simp only [unlines, List.flatMap_cons, List.append_assoc, List.singleton_append] at hrest ⊢
    rw [Text.lines, linesFrom_append (h ws List.mem_cons_self)]
    exact congrArg (List.cons (unwords ws)) hrest

theorem mem_unwords {ws : List (List Char)} {c : Char} (h : c ∈ unwords ws) : c = ' ' ∨ ∃ w ∈ ws, c ∈ w := by
  induction ws with
  | nil => simp [unwords] at h
  | cons w ws ih =>
    cases ws with
    | nil => exact .inr ⟨w, List.mem_cons_self, by simpa [unwords] using h⟩
    | cons w' ws =>
      rw [unwords_cons_cons] at h
      rcases List.mem_append.1 h with h | h
      · exact .inr ⟨w, List.mem_cons_self, h⟩
      · rcases List.mem_cons.1 h with h | h
        · exact .inl h
        · rcases ih h with h | ⟨v, hv, hc⟩
          · exact .inl h
          · exact .inr ⟨v, List.mem_cons_of_mem w hv, hc⟩

theorem trim_eq {cs : List Char} (hfirst : ∀ c ∈ cs.head?, isBlank c = false)
    (hlast : ∀ c ∈ cs.getLast?, isBlank c = false) : trim cs = cs := by
  have hstart : ∀ {ds : List Char}, (∀ c ∈ ds.head?, isBlank c = false) → ds.dropWhile isBlank = ds := by
    intro ds hds
    cases ds with
    | nil => rfl
    | cons d ds => simp [hds d rfl]
  rw [trim, hstart hfirst, hstart, List.reverse_reverse]
  simpa using hlast

theorem unwords_ne_nil {w : List Char} {ws : List (List Char)} (h : w ≠ []) : unwords (w :: ws) ≠ [] := by
  cases ws with
  | nil => simpa [unwords] using h
  | cons w' ws =>
    rw [unwords_cons_cons]
    exact List.append_ne_nil_of_left_ne_nil h _

theorem trim_unwords {ws : List (List Char)} (h : ∀ w ∈ ws, IsWord w) : trim (unwords ws) = unwords ws := by
  have hsolid : ∀ w ∈ ws, ∀ c ∈ w, isBlank c = false := fun w hw => (h w hw).solid
  refine trim_eq ?_ ?_
  · intro c hc
    cases ws with
    | nil => simp [unwords] at hc
    | cons w ws =>
      have hw := h w List.mem_cons_self
      refine hw.solid c (List.mem_of_mem_head? ?_)
      cases ws with
      | nil => simpa [unwords] using hc
      | cons w' ws => rwa [unwords_cons_cons, List.head?_append_of_ne_nil _ hw.nonempty] at hc
  · induction ws with
    | nil => simp [unwords]
    | cons w ws ih =>
      intro c hc
      cases ws with
      | nil => exact hsolid w List.mem_cons_self c (List.mem_of_mem_getLast? (by simpa [unwords] using hc))
      | cons w' ws =>
        have hrest : unwords (w' :: ws) ≠ [] := unwords_ne_nil (h w' (by simp)).nonempty
        refine ih (fun v hv => h v (List.mem_cons_of_mem w hv)) (fun v hv => hsolid v (List.mem_cons_of_mem w hv)) c ?_
        rwa [unwords_cons_cons, List.getLast?_append_of_ne_nil _ (List.cons_ne_nil _ _),
          List.getLast?_cons_of_ne_nil hrest] at hc

end Text

/-! ## Operands -/

namespace Text

theorem isBlank_of_isAlphanum {c : Char} (h : c.isAlphanum = true) : isBlank c = false := by
  rw [isAlphanum_iff] at h
  simp only [isBlank, isBlankBeyond, Bool.or_eq_false_iff, Bool.and_eq_false_iff, decide_eq_false_iff_not,
    List.contains_eq_mem, List.mem_cons, List.not_mem_nil, or_false]
  omega

end Text

namespace Trace

open Text

theorem isNameChar_iff (c : Char) : isNameChar c = true ↔ c.isAlphanum = true ∨ c = '_' ∨ c = '.' := by
  simp [isNameChar, or_assoc]

theorem isBlank_of_isNameChar {c : Char} (h : isNameChar c = true) : isBlank c = false ∧ c ≠ '#' := by
  rcases (isNameChar_iff c).1 h with hc | rfl | rfl
  · refine ⟨isBlank_of_isAlphanum hc, ?_⟩
    rintro rfl
    exact absurd hc (by decide)
  · decide
  · decide

theorem isWord_of_isNameChar {w : List Char} (hne : w ≠ []) (h : ∀ c ∈ w, isNameChar c = true ∨ c = '@') :
    IsWord w ∧ '#' ∉ w := by
  have hchars : ∀ c ∈ w, isBlank c = false ∧ c ≠ '#' := by
    intro c hc
    rcases h c hc with hname | rfl
    · exact isBlank_of_isNameChar hname
    · decide
  exact ⟨⟨hne, fun c hc => (hchars c hc).1⟩, fun hc => (hchars '#' hc).2 rfl⟩

/-- hexadecimal digits behind their mark that write a number, with underscores wherever wanted -/
inductive WritesHex (n : Nat) : List Char → Prop
  | mk {mark : Char} {digits : List Char} (marked : mark = 'x' ∨ mark = 'X')
      (numeral : IsNumeral 16 (digits.filter (· ≠ '_'))) (value : digitsValue 16 (digits.filter (· ≠ '_')) = n) :
      WritesHex n ('0' :: mark :: digits)

namespace WritesHex

variable {n : Nat} {text : List Char}

theorem isNameChar (h : WritesHex n text) : ∀ c ∈ text, isNameChar c = true := by
  cases h with
  | @mk mark digits marked numeral value =>
    intro c hc
    rw [isNameChar_iff]
    rcases List.mem_cons.1 hc with rfl | hc
    · exact .inl rfl
    rcases List.mem_cons.1 hc with rfl | hc
    · rcases marked with rfl | rfl <;> exact .inl rfl
    by_cases hline : c = '_'
    · exact .inr (.inl hline)
    · exact .inl (isAlphanum_of_digit (numeral.digital c (List.mem_filter.2 ⟨hc, decide_eq_true hline⟩)))

theorem ne_nil (h : WritesHex n text) : text ≠ [] := by
  cases h
  exact List.cons_ne_nil _ _

theorem stripHexMark_eq (h : WritesHex n text) : ∃ digits, stripHexMark text = some digits ∧
    IsNumeral 16 (digits.filter (· ≠ '_')) ∧ digitsValue 16 (digits.filter (· ≠ '_')) = n := by
  cases h with
  | @mk mark digits marked numeral value => rcases marked with rfl | rfl <;> exact ⟨digits, rfl, numeral, value⟩

/-- the last `k` hexadecimal digits of a number -/
def hexDigits (n : Nat) : Nat → List Char
  | 0 => []
  | k + 1 => Reg.hexDigit (n / 16 ^ k % 16) :: hexDigits n k

theorem digitIn?_hexDigit {n : Nat} (h : n < 16) : digitIn? 16 (Reg.hexDigit n) = some n := by
  have hall : ∀ m < 16, digitIn? 16 (Reg.hexDigit m) = some m := by decide
  exact hall n h

theorem digital_hexDigits (n k : Nat) : ∀ c ∈ hexDigits n k, (digitIn? 16 c).isSome := by
  induction k with
  | zero => simp [hexDigits]
  | succ k ih =>
    refine List.forall_mem_cons.2 ⟨?_, ih⟩
    rw [digitIn?_hexDigit (Nat.mod_lt _ (by decide))]
    rfl

theorem value_hexDigits (n k m : Nat) :
    (hexDigits n k).foldl (fun n c => 16 * n + (digitIn? 16 c).getD 0) m = 16 ^ k * m + n % 16 ^ k := by
  induction k generalizing m with
  | zero => simp [hexDigits, Nat.mod_one]
  | succ k ih =>
    rw [hexDigits, List.foldl_cons, ih, digitIn?_hexDigit (Nat.mod_lt _ (by decide)), Option.getD_some,
      Nat.mod_pow_succ]
    ring

/-- every number that fits in a word can be written -/
theorem exists_text {n : Nat} (hn : n < 2 ^ 32) : ∃ text, WritesHex n text := by
  have hdigital := digital_hexDigits n 8
  have hplain : (hexDigits n 8).filter (· ≠ '_') = hexDigits n 8 := by
    refine List.filter_eq_self.2 fun c hc => decide_eq_true ?_
    rintro rfl
    exact absurd (isAlphanum_of_digit (hdigital '_' hc)) (by decide)
  refine ⟨'0' :: 'x' :: hexDigits n 8, .mk (.inl rfl) ?_ ?_⟩
  · rw [hplain]
    exact ⟨by simp [hexDigits], hdigital⟩
  · rw [hplain, digitsValue, value_hexDigits, Nat.mul_zero, Nat.zero_add]
    exact Nat.mod_eq_of_lt hn

theorem readValue_eq (h : WritesHex n text) (hn : n < 2 ^ 32) : readValue text = .ok (UInt32.ofNat n) := by
  obtain ⟨digits, hmark, hnumeral, rfl⟩ := h.stripHexMark_eq
  simp only [readValue, hmark, readHex, readNatural_eq hnumeral (by decide : 0 < 16) hn]
  rfl

end WritesHex

/-- a word written in hexadecimal digits behind their mark, or in decimal digits without a sign -/
inductive IsOperand (w : UInt32) : List Char → Prop
  | hex {text : List Char} (written : WritesHex w.toNat text) : IsOperand w text
  | decimal {text : List Char} (numeral : IsNumeral 10 text) (value : digitsValue 10 text = w.toNat) : IsOperand w text

namespace IsOperand

variable {w : UInt32} {text : List Char}

theorem isNameChar (h : IsOperand w text) : ∀ c ∈ text, isNameChar c = true := by
  cases h with
  | hex written => exact written.isNameChar
  | decimal numeral value => exact fun c hc => (isNameChar_iff c).2 (.inl (isAlphanum_of_digit (numeral.digital c hc)))

theorem ne_nil (h : IsOperand w text) : text ≠ [] := by
  cases h with
  | hex written => exact written.ne_nil
  | decimal numeral value => exact numeral.nonempty

theorem isWord (h : IsOperand w text) : IsWord text ∧ '#' ∉ text :=
  isWord_of_isNameChar h.ne_nil fun c hc => .inl (h.isNameChar c hc)

theorem exists_text (w : UInt32) : ∃ text, IsOperand w text := (WritesHex.exists_text w.toNat_lt).imp fun _ h => .hex h

/-- an operand is read as the word that it writes -/
theorem value_eq (h : IsOperand w text) : Trace.value text = .ok w := by
  have hread : readValue text = .ok w := by
    cases h with
    | hex written => rw [written.readValue_eq w.toNat_lt, UInt32.ofNat_toNat]
    | decimal numeral value =>
      have hdecimal := IsDecimal.plain numeral
      have hlt := w.toNat_lt
      refine (readValue_eq_ok_iff (isUnmarked_of_isDecimal hdecimal)).2 (.inl ⟨_, hdecimal, by omega, by omega, ?_⟩)
      rw [ofInt32_natCast, value, UInt32.ofNat_toNat]
  rw [Trace.value, hread]
  rfl

end IsOperand

end Trace

/-! ## Names -/

namespace Text

def asciiChars (s : String) : List Char := s.toByteArray.data.toList.map fun b => Char.ofNat b.toNat

/-- the characters of a text are its bytes, if these are all below 128 -/
theorem toList_eq_asciiChars {s : String} (h : ∀ c ∈ asciiChars s, c.toNat < 128) : s.toList = asciiChars s := by
  have hencode : ∀ n < 256, (Char.ofNat n).toNat < 128 → String.utf8EncodeChar (Char.ofNat n) = [UInt8.ofNat n] := by
    decide +kernel
  have hflat : ∀ l : List UInt8, (∀ b ∈ l, (Char.ofNat b.toNat).toNat < 128) →
      (l.map fun b => Char.ofNat b.toNat).flatMap String.utf8EncodeChar = l := by
    intro l hl
    induction l with
    | nil => rfl
    | cons b l ih =>
      have hb := hencode b.toNat b.toNat_lt (hl b List.mem_cons_self)
      rw [List.map_cons, List.flatMap_cons, hb, ih fun c hc => hl c (List.mem_cons_of_mem b hc), UInt8.ofNat_toNat]
      rfl
  have hs : String.ofList (asciiChars s) = s := by
    rw [← String.toByteArray_inj, String.toByteArray_ofList, List.utf8Encode, asciiChars,
      hflat _ fun b hb => h _ (List.mem_map_of_mem hb)]
    exact ByteArray.ext (by rw [List.data_toByteArray, Array.toArray_toList])
  calc s.toList = (String.ofList (asciiChars s)).toList := by rw [hs]
    _ = asciiChars s := String.toList_ofList

end Text

namespace Reg

/-- the registers whose names have a slash -/
def slashed : List Nat := [163, 164, 166, 167]

/-- the least number for which no two names of a revision have the same code -/
def codeModulus : Nat := 5177

/-- a name as a numeral in base 128, in any case of its letters, modulo a number that tells all names apart -/
def nameCode (cs : List Char) : Nat := (cs.map Char.toLower).foldl (fun n c => (128 * n + c.toNat) % codeModulus) 0

/-- whether a name begins with no digit 0 and, but for the slash of four registers, has the characters of a register -/
def isNameOf (reg : Reg) (cs : List Char) : Bool :=
  cs.head?.any (· ≠ '0') && cs.all (fun c => Trace.isNameChar c || c == '/') &&
    cs.contains '/' == slashed.contains reg.val

/-- whether registers have names as they should, with codes that differ and whose bits are not set -/
def wellNamed (name : Reg → String) (seen : Nat) : List Reg → Bool
  | [] => true
  | reg :: rest =>
    let cs := Text.asciiChars (name reg)
    isNameOf reg cs && !seen.testBit (nameCode cs) && wellNamed name (seen ||| 1 <<< nameCode cs) rest

theorem wellNamed_nameOf (revision : Revision) : wellNamed (nameOf revision) 0 (List.finRange 256) = true := by
  have hvoodoo : wellNamed (nameOf .voodoo2) 0 (List.finRange 256) = true := by decide +kernel
  have hshared : nameOf .voodoo1 = nameOf .voodoo2 := rfl
  cases revision with
  | voodoo1 => rw [hshared, hvoodoo]
  | voodoo2 => exact hvoodoo
  | banshee => decide +kernel

/-- what the check finds, by induction on the registers that are left -/
theorem wellNamed_spec {name : Reg → String} {seen : Nat} {regs : List Reg} (h : wellNamed name seen regs = true) :
    (∀ r ∈ regs, isNameOf r (Text.asciiChars (name r)) = true ∧
      seen.testBit (nameCode (Text.asciiChars (name r))) = false) ∧
    (regs.map fun r => nameCode (Text.asciiChars (name r))).Nodup := by
  induction regs generalizing seen with
  | nil => simp
  | cons r regs ih =>
    simp only [wellNamed, Bool.and_eq_true, Bool.not_eq_true'] at h
    obtain ⟨⟨hname, hseen⟩, hrest⟩ := h
    obtain ⟨hall, hnodup⟩ := ih hrest
    simp only [Nat.testBit_or, Bool.or_eq_false_iff, Nat.one_shiftLeft] at hall
    refine ⟨?_, List.nodup_cons.2 ⟨fun hmem => ?_, hnodup⟩⟩
    · intro s hs
      rcases List.mem_cons.1 hs with rfl | hs
      · exact ⟨hname, hseen⟩
      · exact ⟨(hall s hs).1, (hall s hs).2.1⟩
    · obtain ⟨s, hs, hcode⟩ := List.mem_map.1 hmem
      have hbit := (hall s hs).2.2
      rw [hcode, Nat.testBit_two_pow_self] at hbit
      exact absurd hbit (by decide)

theorem toList_nameOf (revision : Revision) (reg : Reg) :
    (nameOf revision reg).toList = Text.asciiChars (nameOf revision reg) := by
  have hname := ((wellNamed_spec (wellNamed_nameOf revision)).1 reg (List.mem_finRange reg)).1
  simp only [isNameOf, Bool.and_eq_true, List.all_eq_true, Bool.or_eq_true, beq_iff_eq] at hname
  refine Text.toList_eq_asciiChars fun c hc => ?_
  rcases hname.1.2 c hc with h | rfl
  · rw [Trace.isNameChar_iff, Text.isAlphanum_iff] at h
    rcases h with h | rfl | rfl
    · omega
    · decide
    · decide
  · decide

theorem isNameOf_name (revision : Revision) (reg : Reg) : isNameOf reg (name revision reg).toList = true := by
  rw [name_eq_nameOf, toList_nameOf]
  exact ((wellNamed_spec (wellNamed_nameOf revision)).1 reg (List.mem_finRange reg)).1

/-- **A register is found by its name.** -/
theorem find?_name (revision : Revision) (reg : Reg) : find? revision (name revision reg) = some reg := by
  have hsame : ∀ r, sameName (name revision r) (name revision reg) = true → r = reg := by
    intro r hr
    rw [name_eq_nameOf, name_eq_nameOf] at hr
    refine List.inj_on_of_nodup_map (wellNamed_spec (wellNamed_nameOf revision)).2 (List.mem_finRange r)
      (List.mem_finRange reg) ?_
    rw [← toList_nameOf, ← toList_nameOf, nameCode, nameCode, beq_iff_eq.1 hr]
  obtain ⟨r, hfound⟩ : ∃ r, find? revision (name revision reg) = some r := by
    rw [← Option.isSome_iff_exists, find?, List.find?_isSome]
    exact ⟨reg, List.mem_finRange reg, beq_self_eq_true _⟩
  have hr := List.find?_some (show (List.finRange 256).find? _ = some r from hfound)
  rw [hfound, hsame r hr]

end Reg

namespace Trace

open Text

/-! ## Register words -/

theorem mem_name {revision : Revision} {reg : Reg} {c : Char} (h : c ∈ (Reg.name revision reg).toList) :
    (isNameChar c = true ∨ c = '/') ∧ isBlank c = false ∧ c ≠ '#' := by
  have hname := Reg.isNameOf_name revision reg
  simp only [Reg.isNameOf, Bool.and_eq_true, List.all_eq_true, Bool.or_eq_true, beq_iff_eq] at hname
  have hc := hname.1.2 c h
  refine ⟨hc, ?_⟩
  rcases hc with hc | rfl
  · exact isBlank_of_isNameChar hc
  · decide

/-- a name does not begin with the digit 0, and so is no byte offset -/
theorem head_name (revision : Revision) (reg : Reg) :
    ∃ c rest, (Reg.name revision reg).toList = c :: rest ∧ c ≠ '0' := by
  have hname := Reg.isNameOf_name revision reg
  simp only [Reg.isNameOf, Bool.and_eq_true] at hname
  have hhead := hname.1.1
  cases hcs : (Reg.name revision reg).toList with
  | nil =>
    rw [hcs] at hhead
    cases hhead
  | cons c rest =>
    rw [hcs] at hhead
    exact ⟨c, rest, rfl, by simpa using hhead⟩

/-- the registers with a slash in their name are the four -/
theorem slash_mem_name (revision : Revision) (reg : Reg) :
    '/' ∈ (Reg.name revision reg).toList ↔ reg.val ∈ Reg.slashed := by
  have hname := Reg.isNameOf_name revision reg
  simp only [Reg.isNameOf, Bool.and_eq_true, beq_iff_eq] at hname
  rw [← List.contains_iff_mem, ← List.contains_iff_mem, hname.2]

theorem ofWord?_name {revision : Revision} {reg : Reg} (h : reg.val ∉ Reg.slashed) (digit : Char) :
    RegisterText.ofWord? ((Reg.name revision reg).toList ++ ['@', digit]) =
      (digitIn? 16 digit).map fun chips => ⟨(Reg.name revision reg).toList, chips⟩ := by
  have hchars : ∀ c ∈ (Reg.name revision reg).toList, isNameChar c = true := by
    intro c hc
    rcases (mem_name hc).1 with hname | rfl
    · exact hname
    · exact absurd ((slash_mem_name revision reg).1 hc) h
  have hbehind : ['@', digit].takeWhile isNameChar = [] := rfl
  obtain ⟨c, rest, hcs, -⟩ := head_name revision reg
  rw [hcs] at hchars ⊢
  rw [RegisterText.ofWord?, List.takeWhile_append_of_pos hchars, List.dropWhile_append_of_pos hchars, hbehind,
    List.append_nil]
  rfl

theorem ofWord?_slashed {revision : Revision} {reg : Reg} (h : reg.val ∈ Reg.slashed) (digit : Char) :
    RegisterText.ofWord? ((Reg.name revision reg).toList ++ ['@', digit]) = none := by
  have hslash := (slash_mem_name revision reg).2 h
  have hdrop : ∀ cs : List Char, (∀ c ∈ cs, isNameChar c = true ∨ c = '/') → '/' ∈ cs →
      ∃ rest, (cs ++ ['@', digit]).dropWhile isNameChar = '/' :: rest := by
    intro cs
    induction cs with
    | nil => simp
    | cons c cs ih =>
      intro hchars hmem
      rcases hchars c List.mem_cons_self with hc | rfl
      · have hcs : '/' ∈ cs := by
          rcases List.mem_cons.1 hmem with rfl | hcs
          · exact absurd hc (by decide)
          · exact hcs
        simpa [hc] using ih (fun d hd => hchars d (List.mem_cons_of_mem c hd)) hcs
      · exact ⟨cs ++ ['@', digit], rfl⟩
  obtain ⟨rest, hrest⟩ := hdrop _ (fun c hc => (mem_name hc).1) hslash
  simp [RegisterText.ofWord?, hrest]

/-- a name stands for its register -/
theorem findRegister_name (revision : Revision) (reg : Reg) :
    findRegister revision (Reg.name revision reg).toList = .ok (UInt32.ofNat reg.val) := by
  have hmark : stripHexMark (Reg.name revision reg).toList = none := by
    obtain ⟨c, rest, hcs, hc⟩ := head_name revision reg
    rw [hcs]
    unfold stripHexMark
    split
    · rename_i h
      exact absurd (List.cons.inj h).1 hc
    · rename_i h
      exact absurd (List.cons.inj h).1 hc
    · rfl
  simp only [findRegister, hmark, String.ofList_toList, Reg.find?_name]

/-! ## Lines -/

/-- the words of a command other than a register write -/
inductive Plain : TraceCommand → List (List Char) → Prop
  | texture {offset data : UInt32} {a b : List Char} (first : IsOperand offset a) (second : IsOperand data b) :
      Plain (.texture offset data) [['t', 'e', 'x'], a, b]
  | linear {offset data mask : UInt32} {a b m : List Char} (first : IsOperand offset a) (second : IsOperand data b)
      (third : IsOperand mask m) : Plain (.linear offset data mask) [['l', 'f', 'b'], a, b, m]
  | linearWhole {offset data : UInt32} {a b : List Char} (first : IsOperand offset a) (second : IsOperand data b) :
      Plain (.linear offset data 0xFFFFFFFF) [['l', 'f', 'b'], a, b]
  | retrace {count : UInt32} {n : List Char} (first : IsOperand count n) :
      Plain (.retrace count) [['v', 'b', 'l', 'a', 'n', 'k'], n]
  | retraceOnce : Plain (.retrace 1) [['v', 'b', 'l', 'a', 'n', 'k']]
  | flush : Plain .flush [['f', 'l', 'u', 's', 'h']]

theorem isWord_verb {w : List Char} (hne : w ≠ []) (hall : w.all Char.isAlphanum = true) : IsWord w ∧ '#' ∉ w := by
  rw [List.all_eq_true] at hall
  exact isWord_of_isNameChar hne fun c hc => .inl ((isNameChar_iff c).2 (.inl (hall c hc)))

namespace Plain

variable {command : TraceCommand} {ws : List (List Char)}

theorem isWord (h : Plain command ws) : ∀ w ∈ ws, IsWord w ∧ '#' ∉ w := by
  cases h with
  | texture first second =>
    exact List.forall_mem_cons.2 ⟨isWord_verb (by simp) (by decide), List.forall_mem_cons.2
      ⟨first.isWord, List.forall_mem_singleton.2 second.isWord⟩⟩
  | linear first second third =>
    exact List.forall_mem_cons.2 ⟨isWord_verb (by simp) (by decide), List.forall_mem_cons.2
      ⟨first.isWord, List.forall_mem_cons.2 ⟨second.isWord, List.forall_mem_singleton.2 third.isWord⟩⟩⟩
  | linearWhole first second =>
    exact List.forall_mem_cons.2 ⟨isWord_verb (by simp) (by decide), List.forall_mem_cons.2
      ⟨first.isWord, List.forall_mem_singleton.2 second.isWord⟩⟩
  | retrace first =>
    exact List.forall_mem_cons.2 ⟨isWord_verb (by simp) (by decide), List.forall_mem_singleton.2 first.isWord⟩
  | retraceOnce => exact List.forall_mem_singleton.2 (isWord_verb (by simp) (by decide))
  | flush => exact List.forall_mem_singleton.2 (isWord_verb (by simp) (by decide))

theorem command?_eq (h : Plain command ws) (revision : Revision) : ∃ verb rest, ws = verb :: rest ∧
    (Verb.ofWord? verb).bind (command? revision · rest) = some (.ok command) := by
  cases h with
  | texture first second =>
    refine ⟨_, _, rfl, ?_⟩
    have hverb : Verb.ofWord? ['t', 'e', 'x'] = some .texture := rfl
    simp only [hverb, Option.bind_some, command?, textureCommand, first.value_eq, second.value_eq]
    rfl
  | linear first second third =>
    refine ⟨_, _, rfl, ?_⟩
    have hverb : Verb.ofWord? ['l', 'f', 'b'] = some .linear := rfl
    simp only [hverb, Option.bind_some, command?, linearCommand, first.value_eq, second.value_eq, third.value_eq]
    rfl
  | linearWhole first second =>
    refine ⟨_, _, rfl, ?_⟩
    have hverb : Verb.ofWord? ['l', 'f', 'b'] = some .linear := rfl
    simp only [hverb, Option.bind_some, command?, linearCommand, first.value_eq, second.value_eq]
    rfl
  | retrace first =>
    refine ⟨_, _, rfl, ?_⟩
    have hverb : Verb.ofWord? ['v', 'b', 'l', 'a', 'n', 'k'] = some .retrace := rfl
    simp only [hverb, Option.bind_some, command?, first.value_eq]
    rfl
  | retraceOnce => exact ⟨_, _, rfl, rfl⟩
  | flush => exact ⟨_, _, rfl, rfl⟩

theorem exists_or_register (command : TraceCommand) :
    (∃ ws, Plain command ws) ∨ ∃ offset data, command = .register offset data := by
  cases command with
  | register offset data => exact .inr ⟨offset, data, rfl⟩
  | texture offset data =>
    obtain ⟨a, ha⟩ := IsOperand.exists_text offset
    obtain ⟨b, hb⟩ := IsOperand.exists_text data
    exact .inl ⟨_, .texture ha hb⟩
  | linear offset data mask =>
    obtain ⟨a, ha⟩ := IsOperand.exists_text offset
    obtain ⟨b, hb⟩ := IsOperand.exists_text data
    obtain ⟨m, hm⟩ := IsOperand.exists_text mask
    exact .inl ⟨_, .linear ha hb hm⟩
  | retrace count =>
    obtain ⟨n, hn⟩ := IsOperand.exists_text count
    exact .inl ⟨_, .retrace hn⟩
  | flush => exact .inl ⟨_, .flush⟩

end Plain

theorem toNat_or_chips {index chips : Nat} (hindex : index < 256) (hchips : chips < 16) :
    (UInt32.ofNat index ||| UInt32.ofNat (256 * chips)).toNat = index + 256 * chips := by
  have hor : 256 * chips + index = 256 * chips ||| index := Nat.two_pow_add_eq_or_of_lt (i := 8) hindex chips
  have hsmall : ∀ n < 4096, (UInt32.ofNat n).toNat = n := fun n hn =>
    UInt32.toNat_ofNat_of_lt' (Nat.lt_of_lt_of_le hn (by decide))
  rw [UInt32.toNat_or, hsmall index (by omega), hsmall (256 * chips) (by omega), Nat.or_comm, ← hor, Nat.add_comm]

/-- the chips stand above the register's number -/
theorem or_chips {index chips : Nat} {offset : UInt32} (place : offset.toNat = index + 256 * chips)
    (hindex : index < 256) (hchips : chips < 16) : UInt32.ofNat index ||| UInt32.ofNat (256 * chips) = offset := by
  rw [← UInt32.toNat_inj, toNat_or_chips hindex hchips, place]

/-- the words of a command, a register by its name -/
inductive Spelled (revision : Revision) : TraceCommand → List (List Char) → Prop
  | register (reg : Reg) {digit : Char} {chips : Nat} (chip : digitIn? 16 digit = some chips) {data : UInt32}
      {text : List Char} (written : IsOperand data text) :
      Spelled revision (.register (UInt32.ofNat reg.val ||| UInt32.ofNat (256 * chips)) data)
        [['w'], (Reg.name revision reg).toList ++ ['@', digit], text]
  | plain {command : TraceCommand} {ws : List (List Char)} (written : Plain command ws) : Spelled revision command ws

/-- a command other than a write to a register whose name has a slash -/
def Traceable : TraceCommand → Prop
  | .register offset _ => offset.toNat % 256 ∉ Reg.slashed
  | _ => True

instance : (command : TraceCommand) → Decidable (Traceable command)
  | .register offset _ => inferInstanceAs (Decidable (offset.toNat % 256 ∉ Reg.slashed))
  | .texture _ _ => inferInstanceAs (Decidable True)
  | .linear _ _ _ => inferInstanceAs (Decidable True)
  | .retrace _ => inferInstanceAs (Decidable True)
  | .flush => inferInstanceAs (Decidable True)

theorem Plain.traceable {command : TraceCommand} {ws : List (List Char)} (h : Plain command ws) : Traceable command := by
  cases h <;> trivial

namespace Spelled

variable {revision : Revision} {command : TraceCommand} {ws : List (List Char)}

theorem isWord_register (revision : Revision) (reg : Reg) {digit : Char} {chips : Nat}
    (chip : digitIn? 16 digit = some chips) :
    IsWord ((Reg.name revision reg).toList ++ ['@', digit]) ∧ '#' ∉ (Reg.name revision reg).toList ++ ['@', digit] := by
  have hdigit := isAlphanum_of_digit (Option.isSome_iff_exists.2 ⟨chips, chip⟩)
  have hchars : ∀ c ∈ (Reg.name revision reg).toList ++ ['@', digit], isBlank c = false ∧ c ≠ '#' := by
    intro c hc
    simp only [List.mem_append, List.mem_cons, List.not_mem_nil, or_false] at hc
    rcases hc with hc | rfl | rfl
    · exact (mem_name hc).2
    · decide
    · exact isBlank_of_isNameChar ((isNameChar_iff _).2 (.inl hdigit))
  exact ⟨⟨by simp, fun c hc => (hchars c hc).1⟩, fun hc => (hchars '#' hc).2 rfl⟩

theorem isWord (h : Spelled revision command ws) : ∀ w ∈ ws, IsWord w ∧ '#' ∉ w := by
  cases h with
  | register reg chip written =>
    exact List.forall_mem_cons.2 ⟨isWord_verb (by simp) (by decide), List.forall_mem_cons.2
      ⟨isWord_register revision reg chip, List.forall_mem_singleton.2 written.isWord⟩⟩
  | plain written => exact written.isWord

theorem traceable_register (reg : Reg) {digit : Char} {chips : Nat} (chip : digitIn? 16 digit = some chips)
    (data : UInt32) : Traceable (.register (UInt32.ofNat reg.val ||| UInt32.ofNat (256 * chips)) data) ↔
      reg.val ∉ Reg.slashed := by
  rw [Traceable, toNat_or_chips reg.isLt (digitIn?_lt chip), Nat.add_mul_mod_self_left, Nat.mod_eq_of_lt reg.isLt]

theorem command?_eq (h : Spelled revision command ws) : ∃ verb rest, ws = verb :: rest ∧
    (Verb.ofWord? verb).bind (command? revision · rest) = if Traceable command then some (.ok command) else none := by
  cases h with
  | @register reg digit chips chip data text written =>
    refine ⟨_, _, rfl, ?_⟩
    have hverb : Verb.ofWord? ['w'] = some .register := rfl
    simp only [hverb, Option.bind_some, command?, traceable_register reg chip]
    by_cases hreg : reg.val ∈ Reg.slashed
    · rw [ofWord?_slashed hreg, if_neg (not_not_intro hreg)]
      rfl
    · rw [ofWord?_name hreg, chip, if_pos hreg]
      simp only [Option.map_some, registerCommand, findRegister_name, written.value_eq]
      rfl
  | plain written =>
    rw [if_pos written.traceable]
    exact written.command?_eq revision

/-- **A line is read as the command that it writes,** or not recognized if its register's name has a slash. -/
theorem readLine_eq (h : Spelled revision command ws) : readLine revision (unwords ws) =
    if Traceable command then .ok (some command) else .error (.unrecognized (String.ofList (unwords ws))) := by
  have hwords : ∀ w ∈ ws, IsWord w := fun w hw => (h.isWord w hw).1
  have hcomment : stripComment (unwords ws) = unwords ws := by
    rw [stripComment, List.takeWhile_eq_self_iff]
    intro c hc
    rw [decide_eq_true_eq]
    rintro rfl
    rcases mem_unwords hc with hblank | ⟨w, hw, hmem⟩
    · exact absurd hblank (by decide)
    · exact (h.isWord w hw).2 hmem
  obtain ⟨verb, rest, hws, hcommand⟩ := h.command?_eq
  rw [readLine, hcomment, words_unwords hwords, trim_unwords hwords, hws]
  simp only [hcommand]
  by_cases ht : Traceable command
  · simp only [if_pos ht]
    rfl
  · simp only [if_neg ht]

theorem newline_not_mem (h : Spelled revision command ws) : '\n' ∉ unwords ws := by
  intro hmem
  rcases mem_unwords hmem with hblank | ⟨w, hw, hc⟩
  · exact absurd hblank (by decide)
  · exact absurd ((h.isWord w hw).1.solid '\n' hc) (by decide)

end Spelled

/-! ## Traces -/

def readFrom (revision : Revision) (n : Nat) (lines : List (List Char)) :
    Except TraceError (List (Option TraceCommand)) := (lines.zipIdx n).mapM (readNumberedLine revision)

theorem readFrom_cons (revision : Revision) (n : Nat) (line : List Char) (lines : List (List Char)) :
    readFrom revision n (line :: lines) = (do
      let found ← readNumberedLine revision (line, n)
      let rest ← readFrom revision (n + 1) lines
      return found :: rest) := by
  rw [readFrom, List.zipIdx_cons, List.mapM_cons]
  rfl

theorem readFrom_ok {revision : Revision} {commands : List TraceCommand} {lines : List (List (List Char))}
    (h : List.Forall₂ (Spelled revision) commands lines) (htraceable : ∀ command ∈ commands, Traceable command)
    (n : Nat) : readFrom revision n (lines.map unwords ++ [[]]) = .ok (commands.map some ++ [none]) := by
  induction h generalizing n with
  | nil => rfl
  | @cons command ws commands lines hline _ ih =>
    have hrest := ih (fun c hc => htraceable c (List.mem_cons_of_mem command hc)) (n + 1)
    rw [List.map_cons, List.cons_append, readFrom_cons, readNumberedLine, hline.readLine_eq,
      if_pos (htraceable command List.mem_cons_self), hrest]
    rfl

/-- the first slashed register stops the trace at its line -/
theorem readFrom_error {revision : Revision} {commands : List TraceCommand} {lines : List (List (List Char))}
    (h : List.Forall₂ (Spelled revision) commands lines) {i : Nat} {command : TraceCommand} {ws : List (List Char)}
    (hcommand : commands[i]? = some command) (hws : lines[i]? = some ws)
    (hbefore : ∀ before ∈ commands.take i, Traceable before) (hslashed : ¬Traceable command) (n : Nat) :
    readFrom revision n (lines.map unwords ++ [[]]) =
      .error ⟨n + i, .unrecognized (String.ofList (unwords ws))⟩ := by
  induction h generalizing n i with
  | nil => simp at hcommand
  | @cons first firstWs commands lines hline _ ih =>
    rw [List.map_cons, List.cons_append, readFrom_cons, readNumberedLine, hline.readLine_eq]
    cases i with
    | zero =>
      simp only [List.getElem?_cons_zero, Option.some.injEq] at hcommand hws
      subst hcommand hws
      rw [if_neg hslashed]
      rfl
    | succ i =>
      simp only [List.getElem?_cons_succ] at hcommand hws
      have hrest := ih hcommand hws (fun c hc => hbefore c (List.mem_cons_of_mem first hc)) (n + 1)
      rw [if_pos (hbefore first List.mem_cons_self), hrest, Nat.add_right_comm, Nat.add_assoc]
      rfl

/-- **Traces are read back,** of any length, unless they write to one of the four registers with a slash in their name:
such a trace ends at its first line that does, which is not recognized. -/
theorem read_spelled (revision : Revision) {commands : List TraceCommand} {lines : List (List (List Char))}
    (h : List.Forall₂ (Spelled revision) commands lines) :
    ((∀ command ∈ commands, Traceable command) → read revision (String.ofList (unlines lines)) = .ok commands) ∧
    ∀ (i : Nat) (command : TraceCommand) (ws : List (List Char)), commands[i]? = some command → lines[i]? = some ws →
      (∀ before ∈ commands.take i, Traceable before) → ¬Traceable command →
      read revision (String.ofList (unlines lines)) =
        .error ⟨i + 1, .unrecognized (String.ofList (unwords ws))⟩ := by
  have hlines : ∀ ws ∈ lines, '\n' ∉ unwords ws := by
    induction h with
    | nil => simp
    | cons hline _ ih => exact List.forall_mem_cons.2 ⟨hline.newline_not_mem, ih⟩
  have hread : read revision (String.ofList (unlines lines)) =
      (readFrom revision 1 (lines.map unwords ++ [[]])).map (List.filterMap id) := by
    rw [read, String.toList_ofList, lines_unlines hlines]
    rfl
  refine ⟨fun htraceable => ?_, fun i command ws hcommand hws hbefore hslashed => ?_⟩
  · rw [hread, readFrom_ok h htraceable]
    simp [Except.map]
  · rw [hread, readFrom_error h hcommand hws hbefore hslashed, Nat.add_comm 1 i]
    rfl

theorem exists_spelled (revision : Revision) {command : TraceCommand}
    (h : ∀ offset data, command = .register offset data → offset.toNat < 4096) :
    ∃ ws, Spelled revision command ws := by
  rcases Plain.exists_or_register command with ⟨ws, hws⟩ | ⟨offset, data, rfl⟩
  · exact ⟨ws, .plain hws⟩
  · have hoffset := h offset data rfl
    have hindex : offset.toNat % 256 < 256 := Nat.mod_lt _ (by decide)
    obtain ⟨text, htext⟩ := IsOperand.exists_text data
    rw [← or_chips (Nat.mod_add_div offset.toNat 256).symm hindex (by omega)]
    exact ⟨_, .register ⟨offset.toNat % 256, hindex⟩ (WritesHex.digitIn?_hexDigit (by omega)) htext⟩

/-- fbzMode written for the first texture unit, then a flush -/
theorem read_spelled_fbzMode :
    List.Forall₂ (Spelled .voodoo2) [.register 580 0x610, .flush]
      [[['w'], (Reg.name .voodoo2 68).toList ++ ['@', '2'], ['0', 'x', '6', '1', '0']], [['f', 'l', 'u', 's', 'h']]] ∧
    String.ofList (unlines
      [[['w'], (Reg.name .voodoo2 68).toList ++ ['@', '2'], ['0', 'x', '6', '1', '0']], [['f', 'l', 'u', 's', 'h']]]) =
      "w fbzMode@2 0x610\nflush\n" ∧
    read .voodoo2 "w fbzMode@2 0x610\nflush\n" = .ok [.register 580 0x610, .flush] := by
  have hline : Spelled .voodoo2 (.register 580 0x610)
      [['w'], (Reg.name .voodoo2 68).toList ++ ['@', '2'], ['0', 'x', '6', '1', '0']] :=
    .register 68 (by decide : digitIn? 16 '2' = some 2) (.hex (.mk (.inl rfl) ⟨by simp, List.all_eq_true.1 (by decide)⟩ (by decide)))
  have hlines := List.Forall₂.cons hline (.cons (.plain .flush) .nil)
  have htext : String.ofList (unlines
      [[['w'], (Reg.name .voodoo2 68).toList ++ ['@', '2'], ['0', 'x', '6', '1', '0']], [['f', 'l', 'u', 's', 'h']]]) =
      "w fbzMode@2 0x610\nflush\n" := by decide +kernel
  refine ⟨hlines, htext, ?_⟩
  rw [← htext]
  exact (read_spelled .voodoo2 hlines).1 (by decide)

/-- **A register with a slash in its name cannot be written in a trace.** -/
theorem read_slashed : Spelled .voodoo2 (.register 163 0)
      [['w'], (Reg.name .voodoo2 163).toList ++ ['@', '0'], ['0', 'x', '0']] ∧
    String.ofList (unlines [[['w'], (Reg.name .voodoo2 163).toList ++ ['@', '0'], ['0', 'x', '0']]]) =
      "w sS/Wtmu0@0 0x0\n" ∧
    read .voodoo2 "w sS/Wtmu0@0 0x0\n" = .error ⟨1, .unrecognized "w sS/Wtmu0@0 0x0"⟩ := by
  refine ⟨?_, by decide +kernel, by decide +kernel⟩
  exact .register 163 (by decide : digitIn? 16 '0' = some 0) (.hex (.mk (.inl rfl) ⟨by simp, List.all_eq_true.1 (by decide)⟩ (by decide)))

end Trace

end Accel3D
