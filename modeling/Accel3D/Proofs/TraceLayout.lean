/-
The layout of a trace.

A text is the pieces between its line feeds (`lines_eq_splitOn`), and each of them is read for itself. So a text is read
exactly if all of its lines are, its commands are those of its lines in order (`read_eq_ok_iff`), and otherwise the first
line that is not read is reported (`read_eq_error`).

How a line is laid out has no influence (`Row`): there may be blanks of any kind before its words, between them and
behind them, and a comment at the end. A line without words is no command. A carriage return at the end of a line is one
more blank, or one more character of the comment.

Results: `words_spaced` (words between blanks), `readLine_row` (one line), `read_laidOut` (commands laid out in a text),
`exists_laidOut` (all commands can be), `trace_layout` (all of it together).
-/
import Accel3D.Proofs.TraceText

namespace Accel3D

namespace Text

/-! ## Lines -/

theorem linesFrom_eq_splitOn (current cs : List Char) :
    linesFrom current cs = (cs.splitOn '\n').modifyHead (current.reverse ++ ·) := by
  induction cs generalizing current with
  | nil => simp [linesFrom]
  | cons c cs ih =>
    rw [linesFrom, List.splitOn_cons_eq_if_modifyHead]
    by_cases hc : c = '\n'
    · have hrest : linesFrom [] cs = cs.splitOn '\n' := (ih []).trans (congrFun List.modifyHead_id _)
      simp [hc, hrest]
    · simp only [if_neg hc, beq_eq_false_iff_ne.2 hc, Bool.false_eq_true, if_false, ih, List.modifyHead_modifyHead]
      congr 1
      funext line
      simp

/-- the lines of a text are its pieces between line feeds -/
theorem lines_eq_splitOn (cs : List Char) : lines cs = cs.splitOn '\n' :=
  (linesFrom_eq_splitOn [] cs).trans (congrFun List.modifyHead_id _)

theorem newline_not_mem_linesFrom {current : List Char} (h : '\n' ∉ current) (cs : List Char) :
    ∀ line ∈ linesFrom current cs, '\n' ∉ line := by
  have hcurrent : ∀ {cs : List Char}, '\n' ∉ cs → '\n' ∉ cs.reverse := fun h => by rwa [List.mem_reverse]
  induction cs generalizing current with
  | nil => exact List.forall_mem_singleton.2 (hcurrent h)
  | cons c cs ih =>
    rw [linesFrom]
    split_ifs with hc
    · exact List.forall_mem_cons.2 ⟨hcurrent h, ih List.not_mem_nil⟩
    · exact ih fun hmem => (List.mem_cons.1 hmem).elim (fun heq => hc heq.symm) h

theorem newline_not_mem_of_mem_splitOn {cs line : List Char} (h : line ∈ cs.splitOn '\n') : '\n' ∉ line := by
  rw [← lines_eq_splitOn] at h
  exact newline_not_mem_linesFrom List.not_mem_nil cs line h

/-! ## Words between blanks -/

/-- blanks inside a line -/
def IsGap (cs : List Char) : Prop := ∀ c ∈ cs, isBlank c = true ∧ c ≠ '\n'

theorem isGap_nil : IsGap [] := List.forall_mem_nil _

/-- words laid out on a line: blanks before each, at least one between any two, and blanks behind the last -/
inductive Spaced : List (List Char) → List Char → Prop
  | nil {gap : List Char} (blank : IsGap gap) : Spaced [] gap
  | cons {gap w rest : List Char} {ws : List (List Char)} (blank : IsGap gap)
      (apart : ∀ c ∈ rest.head?, isBlank c = true) (spaced : Spaced ws rest) : Spaced (w :: ws) (gap ++ (w ++ rest))

theorem words_gap_append {gap : List Char} (h : IsGap gap) (rest : List Char) : words (gap ++ rest) = words rest := by
  induction gap with
  | nil => rfl
  | cons c gap ih =>
    have hc := (h c List.mem_cons_self).1
    have hgap := ih fun d hd => h d (List.mem_cons_of_mem c hd)
    simpa [words, wordsFrom, hc, consWord] using hgap

theorem words_word_append {w rest : List Char} (h : IsWord w) (apart : ∀ c ∈ rest.head?, isBlank c = true) :
    words (w ++ rest) = w :: words rest := by
  rw [words, wordsFrom_append h.solid, List.append_nil]
  cases rest with
  | nil => simp [words, wordsFrom, consWord, h.nonempty]
  | cons c rest =>
    have hc := apart c rfl
    simp [words, wordsFrom, hc, consWord, h.nonempty]

/-- the words of a line are those that it was made of, whatever blanks stand around them -/
theorem words_spaced {ws : List (List Char)} {line : List Char} (h : Spaced ws line) (hws : ∀ w ∈ ws, IsWord w) :
    words line = ws := by
  induction h with
  | @nil gap blank =>
    have hgap := words_gap_append blank []
    rw [List.append_nil] at hgap
    rw [hgap]
    rfl
  | @cons gap w rest ws blank apart spaced ih =>
    rw [words_gap_append blank, words_word_append (hws w List.mem_cons_self) apart,
      ih fun v hv => hws v (List.mem_cons_of_mem w hv)]

theorem Spaced.mem {ws : List (List Char)} {line : List Char} (h : Spaced ws line) {c : Char} (hc : c ∈ line) :
    (isBlank c = true ∧ c ≠ '\n') ∨ ∃ w ∈ ws, c ∈ w := by
  induction h with
  | nil blank => exact .inl (blank c hc)
  | @cons gap w rest ws blank apart spaced ih =>
    rcases List.mem_append.1 hc with hgap | hc
    · exact .inl (blank c hgap)
    · rcases List.mem_append.1 hc with hw | hrest
      · exact .inr ⟨w, List.mem_cons_self, hw⟩
      · exact (ih hrest).imp_right fun ⟨v, hv, hmem⟩ => ⟨v, List.mem_cons_of_mem w hv, hmem⟩

theorem Spaced.blank_cons {ws : List (List Char)} {line : List Char} (h : Spaced ws line) {b : Char}
    (hb : isBlank b = true ∧ b ≠ '\n') : Spaced ws (b :: line) := by
  cases h with
  | nil blank => exact .nil (List.forall_mem_cons.2 ⟨hb, blank⟩)
  | cons blank apart spaced => exact .cons (List.forall_mem_cons.2 ⟨hb, blank⟩) apart spaced

theorem Spaced.snoc_blank {ws : List (List Char)} {line : List Char} (h : Spaced ws line) {b : Char}
    (hb : isBlank b = true ∧ b ≠ '\n') : Spaced ws (line ++ [b]) := by
  induction h with
  | nil blank => exact .nil (List.forall_mem_append.2 ⟨blank, List.forall_mem_singleton.2 hb⟩)
  | @cons gap w rest ws blank apart spaced ih =>
    rw [List.append_assoc, List.append_assoc]
    refine .cons blank ?_ ih
    cases rest with
    | nil =>
      rintro c ⟨⟩
      exact hb.1
    | cons d rest => exact apart

theorem spaced_unwords (ws : List (List Char)) : Spaced ws (unwords ws) := by
  induction ws with
  | nil => exact .nil isGap_nil
  | cons w ws ih =>
    cases ws with
    | nil => simpa [unwords] using Spaced.cons (w := w) isGap_nil (by simp) (.nil isGap_nil)
    | cons w' ws =>
      rw [unwords_cons_cons]
      refine Spaced.cons isGap_nil ?_ (ih.blank_cons ⟨rfl, by decide⟩)
      rintro c ⟨⟩
      rfl

end Text

namespace Trace

open Text

/-! ## Commands -/

/-- which chips a register write is for, as it is written behind the register -/
inductive WritesChips : Nat → List Char → Prop
  | all : WritesChips 0 []
  | selected {digit : Char} {chips : Nat} (chip : digitIn? 16 digit = some chips) : WritesChips chips ['@', digit]

theorem WritesChips.lt {chips : Nat} {text : List Char} (h : WritesChips chips text) : chips < 16 := by
  cases h with
  | all => decide
  | selected chip => exact digitIn?_lt chip

theorem WritesChips.mem {chips : Nat} {text : List Char} (h : WritesChips chips text) :
    ∀ c ∈ text, isNameChar c = true ∨ c = '@' := by
  cases h with
  | all => simp
  | selected chip =>
    have hdigit := isAlphanum_of_digit (Option.isSome_iff_exists.2 ⟨_, chip⟩)
    exact List.forall_mem_cons.2 ⟨.inr rfl, List.forall_mem_singleton.2 (.inl ((isNameChar_iff _).2 (.inl hdigit)))⟩

/-- the words of a command, a register by its byte offset -/
inductive Written : TraceCommand → List (List Char) → Prop
  | register {index chips : Nat} {offset data : UInt32} {address suffix text : List Char}
      (place : offset.toNat = index + 256 * chips) (bound : index < 256) (first : WritesHex (4 * index) address)
      (chip : WritesChips chips suffix) (second : IsOperand data text) :
      Written (.register offset data) [['w'], address ++ suffix, text]
  | plain {command : TraceCommand} {ws : List (List Char)} (written : Plain command ws) : Written command ws

theorem ofWord?_address {n chips : Nat} {address suffix : List Char} (h : WritesHex n address)
    (chip : WritesChips chips suffix) : RegisterText.ofWord? (address ++ suffix) = some ⟨address, chips⟩ := by
  have hbehind : suffix.takeWhile isNameChar = [] ∧ suffix.dropWhile isNameChar = suffix := by
    cases chip <;> exact ⟨rfl, rfl⟩
  rw [RegisterText.ofWord?, List.takeWhile_append_of_pos h.isNameChar, List.dropWhile_append_of_pos h.isNameChar,
    hbehind.1, hbehind.2, List.append_nil]
  simp only [List.isEmpty_iff, h.ne_nil, if_false]
  cases chip with
  | all => rfl
  | selected chip => simp [chip]

/-- a byte offset below 1024 that is a multiple of 4 stands for a register -/
theorem findRegister_address {index : Nat} {address : List Char} (h : WritesHex (4 * index) address)
    (hindex : index < 256) (revision : Revision) : findRegister revision address = .ok (UInt32.ofNat index) := by
  have hvalue : value address = .ok (UInt32.ofNat (4 * index)) := by
    rw [value, h.readValue_eq (by omega)]
    rfl
  have hoffset : (UInt32.ofNat (4 * index)).toNat = 4 * index := UInt32.toNat_ofNat_of_lt' (Nat.lt_of_lt_of_le
    (Nat.mul_lt_mul_of_pos_left hindex (by decide)) (by decide))
  have haligned : UInt32.ofNat (4 * index) % 4 = 0 := by
    rw [← UInt32.toNat_inj, UInt32.toNat_mod, hoffset]
    exact Nat.mul_mod_right 4 index
  have hbound : ¬1024 ≤ UInt32.ofNat (4 * index) := by
    rw [UInt32.le_iff_toNat_le, hoffset]
    exact Nat.not_le.2 (Nat.mul_lt_mul_of_pos_left hindex (by decide))
  have hnumber : UInt32.ofNat (4 * index) / 4 = UInt32.ofNat index := by
    rw [← UInt32.toNat_inj, UInt32.toNat_div, hoffset, UInt32.toNat_ofNat_of_lt' (Nat.lt_trans hindex (by decide))]
    exact Nat.mul_div_cancel_left index (by decide)
  obtain ⟨digits, hmark, -⟩ := h.stripHexMark_eq
  simp only [findRegister, hmark, hvalue, bind, Except.bind, haligned, ne_eq, not_true_eq_false, hbound, or_self,
    if_false, hnumber]
  rfl

namespace Written

variable {command : TraceCommand} {ws : List (List Char)}

theorem isWord (h : Written command ws) : ∀ w ∈ ws, IsWord w ∧ '#' ∉ w := by
  cases h with
  | register place bound first chip second =>
    have hregister := isWord_of_isNameChar (List.append_ne_nil_of_left_ne_nil first.ne_nil _)
      (List.forall_mem_append.2 ⟨fun c hc => .inl (first.isNameChar c hc), chip.mem⟩)
    exact List.forall_mem_cons.2 ⟨isWord_verb (by simp) (by decide), List.forall_mem_cons.2
      ⟨hregister, List.forall_mem_singleton.2 second.isWord⟩⟩
  | plain written => exact written.isWord

theorem command?_eq (h : Written command ws) (revision : Revision) : ∃ verb rest, ws = verb :: rest ∧
    (Verb.ofWord? verb).bind (command? revision · rest) = some (.ok command) := by
  cases h with
  | register place bound first chip second =>
    refine ⟨_, _, rfl, ?_⟩
    have hverb : Verb.ofWord? ['w'] = some .register := rfl
    simp only [hverb, Option.bind_some, command?, ofWord?_address first chip, Option.map_some, registerCommand,
      findRegister_address first bound, second.value_eq, bind, Except.bind, or_chips place bound chip.lt]
    rfl
  | plain written => exact written.command?_eq revision

end Written

/-! ## Rows -/

/-- nothing, or a comment up to the end of its line -/
inductive IsComment : List Char → Prop
  | absent : IsComment []
  | text {text : List Char} (oneLine : '\n' ∉ text) : IsComment ('#' :: text)

/-- a line: the words of a command, or none, with blanks around them and perhaps a comment at the end -/
inductive Row : Option TraceCommand → List Char → Prop
  | command {command : TraceCommand} {ws : List (List Char)} {body comment : List Char} (written : Written command ws)
      (spaced : Spaced ws body) (remark : IsComment comment) : Row (some command) (body ++ comment)
  | empty {gap comment : List Char} (blank : IsGap gap) (remark : IsComment comment) : Row none (gap ++ comment)

theorem IsComment.newline_not_mem {comment : List Char} (h : IsComment comment) : '\n' ∉ comment := by
  cases h with
  | absent => simp
  | text oneLine => exact fun hmem => (List.mem_cons.1 hmem).elim (by decide) oneLine

theorem IsComment.snoc_return {comment : List Char} (h : IsComment comment) :
    comment = [] ∨ IsComment (comment ++ ['\r']) := by
  cases h with
  | absent => exact .inl rfl
  | text oneLine =>
    refine .inr (.text fun hmem => ?_)
    rcases List.mem_append.1 hmem with hmem | hmem
    · exact oneLine hmem
    · exact absurd (List.mem_singleton.1 hmem) (by decide)

theorem stripComment_append {body comment : List Char} (hbody : '#' ∉ body) (h : IsComment comment) :
    stripComment (body ++ comment) = body := by
  have hkeep : ∀ c ∈ body, decide (c ≠ '#') = true := fun c hc => decide_eq_true fun heq => hbody (heq ▸ hc)
  rw [stripComment, List.takeWhile_append_of_pos hkeep]
  cases h <;> simp

theorem marks_not_mem {ws : List (List Char)} {body : List Char} (h : Spaced ws body)
    (hws : ∀ w ∈ ws, IsWord w ∧ '#' ∉ w) : '#' ∉ body ∧ '\n' ∉ body := by
  constructor
  · intro hmem
    rcases h.mem hmem with hblank | ⟨w, hw, hc⟩
    · exact absurd hblank.1 (by decide)
    · exact (hws w hw).2 hc
  · intro hmem
    rcases h.mem hmem with hblank | ⟨w, hw, hc⟩
    · exact hblank.2 rfl
    · exact absurd ((hws w hw).1.solid '\n' hc) (by decide)

namespace Row

variable {found : Option TraceCommand} {line : List Char}

theorem newline_not_mem (h : Row found line) : '\n' ∉ line := by
  cases h with
  | command written spaced remark =>
    have hbody := (marks_not_mem spaced written.isWord).2
    exact fun hmem => (List.mem_append.1 hmem).elim hbody remark.newline_not_mem
  | empty blank remark =>
    exact fun hmem => (List.mem_append.1 hmem).elim (fun hc => (blank '\n' hc).2 rfl) remark.newline_not_mem

/-- a carriage return at the end of a line changes nothing -/
theorem snoc_return (h : Row found line) : Row found (line ++ ['\r']) := by
  have hreturn : isBlank '\r' = true ∧ '\r' ≠ '\n' := ⟨rfl, by decide⟩
  cases h with
  | command written spaced remark =>
    rcases remark.snoc_return with rfl | hremark
    · simpa using Row.command written (spaced.snoc_blank hreturn) .absent
    · simpa using Row.command written spaced hremark
  | empty blank remark =>
    rcases remark.snoc_return with rfl | hremark
    · simpa using Row.empty (List.forall_mem_append.2 ⟨blank, List.forall_mem_singleton.2 hreturn⟩) .absent
    · simpa using Row.empty blank hremark

end Row

/-- **A line is read as the command that it writes,** whatever blanks and comment it has. -/
theorem readLine_row {found : Option TraceCommand} {line : List Char} (h : Row found line) (revision : Revision) :
    readLine revision line = .ok found := by
  cases h with
  | command written spaced remark =>
    have hbody := (marks_not_mem spaced written.isWord).1
    obtain ⟨verb, rest, hws, hcommand⟩ := written.command?_eq revision
    rw [readLine, stripComment_append hbody remark, words_spaced spaced fun w hw => (written.isWord w hw).1, hws]
    simp only [hcommand]
    rfl
  | empty blank remark =>
    have hspaced := Spaced.nil blank
    rw [readLine, stripComment_append (marks_not_mem hspaced (by simp)).1 remark, words_spaced hspaced (by simp)]

/-! ## Texts -/

/-- a text whose lines are rows with the commands in order, each line but the last ended by a line feed, perhaps with a
carriage return before it -/
inductive LaidOut : List TraceCommand → List Char → Prop
  | last {found : Option TraceCommand} {line : List Char} (row : Row found line) : LaidOut found.toList line
  | cons {found : Option TraceCommand} {line ending rest : List Char} {commands : List TraceCommand}
      (row : Row found line) (ends : ending = ['\n'] ∨ ending = ['\r', '\n']) (below : LaidOut commands rest) :
      LaidOut (found.toList ++ commands) (line ++ (ending ++ rest))

variable {revision : Revision}

theorem readFrom_eq_ok_iff {n : Nat} {lines : List (List Char)} {found : List (Option TraceCommand)} :
    readFrom revision n lines = .ok found ↔ List.Forall₂ (readLine revision · = .ok ·) lines found := by
  induction lines generalizing n found with
  | nil => simp [readFrom, pure, Except.pure, eq_comm]
  | cons line lines ih =>
    rw [readFrom_cons, List.forall₂_cons_left_iff, readNumberedLine]
    cases hline : readLine revision line with
    | error cause => simp [Except.mapError, bind, Except.bind]
    | ok first =>
      simp only [← ih (n := n + 1)]
      cases readFrom revision (n + 1) lines <;>
        simp [Except.mapError, bind, Except.bind, pure, Except.pure, eq_comm]

/-- the first of some numbered lines that is not read is reported -/
theorem readFrom_eq_error {n : Nat} {lines : List (List Char)} {e : TraceError} (h : readFrom revision n lines = .error e) :
    ∃ i line, lines[i]? = some line ∧ e.line = n + i ∧ readLine revision line = .error e.cause ∧
      ∀ before ∈ lines.take i, ∃ found, readLine revision before = .ok found := by
  induction lines generalizing n with
  | nil => cases h
  | cons line lines ih =>
    rw [readFrom_cons, readNumberedLine] at h
    cases hline : readLine revision line with
    | error cause =>
      rw [hline] at h
      cases h
      exact ⟨0, line, rfl, rfl, hline, by simp⟩
    | ok first =>
      rw [hline] at h
      cases hrest : readFrom revision (n + 1) lines with
      | ok rest =>
        rw [hrest] at h
        cases h
      | error e' =>
        rw [hrest] at h
        cases h
        obtain ⟨i, bad, hget, hnumber, hbad, hbefore⟩ := ih hrest
        refine ⟨i + 1, bad, hget, by omega, hbad, ?_⟩
        rw [List.take_succ_cons]
        exact List.forall_mem_cons.2 ⟨⟨first, hline⟩, hbefore⟩

theorem read_eq (text : String) : read revision text =
    (readFrom revision 1 (text.toList.splitOn '\n')).map (List.filterMap id) := by
  rw [read, lines_eq_splitOn]
  rfl

/-- **A text is read exactly if each of its lines is,** and its commands are theirs. -/
theorem read_eq_ok_iff {text : String} {commands : List TraceCommand} : read revision text = .ok commands ↔
    ∃ found, List.Forall₂ (readLine revision · = .ok ·) (text.toList.splitOn '\n') found ∧
      found.filterMap id = commands := by
  simp only [read_eq, ← readFrom_eq_ok_iff (n := 1)]
  cases readFrom revision 1 (text.toList.splitOn '\n') <;> simp [Except.map]

theorem readLine_of_read {text : String} {commands : List TraceCommand} (h : read revision text = .ok commands) :
    ∀ line ∈ text.toList.splitOn '\n', ∃ found, readLine revision line = .ok found := by
  obtain ⟨found, hfound, -⟩ := read_eq_ok_iff.1 h
  exact ((List.forall₂_and_left _ _).1 (hfound.imp fun line found hline => ⟨⟨found, hline⟩, hline⟩)).1

/-- **The first line that is not read is reported.** -/
theorem read_eq_error {text : String} {e : TraceError} (h : read revision text = .error e) :
    ∃ i line, (text.toList.splitOn '\n')[i]? = some line ∧ e.line = i + 1 ∧ readLine revision line = .error e.cause ∧
      ∀ before ∈ (text.toList.splitOn '\n').take i, ∃ found, readLine revision before = .ok found := by
  rw [read_eq] at h
  cases hread : readFrom revision 1 (text.toList.splitOn '\n') with
  | ok found =>
    rw [hread] at h
    cases h
  | error e' =>
    rw [hread] at h
    cases h
    obtain ⟨i, line, hget, hnumber, hrest⟩ := readFrom_eq_error hread
    exact ⟨i, line, hget, by omega, hrest⟩

theorem read_line {line : List Char} (h : '\n' ∉ line) : read revision (String.ofList line) =
    ((readLine revision line).mapError (TraceError.mk 1)).map Option.toList := by
  rw [read_eq, String.toList_ofList, List.splitOn_eq_singleton h, readFrom_cons, readNumberedLine]
  cases readLine revision line with
  | error cause => rfl
  | ok found => cases found <;> rfl

theorem forall₂_of_laidOut {commands : List TraceCommand} {text : List Char} (h : LaidOut commands text)
    (revision : Revision) : ∃ found, List.Forall₂ (readLine revision · = .ok ·) (text.splitOn '\n') found ∧
      found.filterMap id = commands := by
  have hfirst : ∀ (found : Option TraceCommand) rest, (found :: rest).filterMap id = found.toList ++ rest.filterMap id :=
    fun found rest => by cases found <;> rfl
  have hrow : ∀ {found : Option TraceCommand} {line : List Char}, Row found line → line.splitOn '\n' = [line] := fun h =>
    List.splitOn_eq_singleton h.newline_not_mem
  induction h with
  | @last found line row =>
    refine ⟨[found], ?_, by rw [hfirst, List.filterMap_nil, List.append_nil]⟩
    rw [hrow row]
    exact .cons (readLine_row row revision) .nil
  | @cons found line ending rest commands row ends below ih =>
    obtain ⟨others, hothers, rfl⟩ := ih
    refine ⟨found :: others, ?_, hfirst found others⟩
    rcases ends with rfl | rfl
    · rw [List.singleton_append, List.splitOn_append_cons_self, hrow row]
      exact .cons (readLine_row row revision) hothers
    · have hreturn : line ++ (['\r', '\n'] ++ rest) = line ++ ['\r'] ++ '\n' :: rest := by simp
      rw [hreturn, List.splitOn_append_cons_self, hrow row.snoc_return]
      exact .cons (readLine_row row.snoc_return revision) hothers

theorem exists_written {command : TraceCommand}
    (h : ∀ offset data, command = .register offset data → offset.toNat < 4096) : ∃ ws, Written command ws := by
  rcases Plain.exists_or_register command with ⟨ws, hws⟩ | ⟨offset, data, rfl⟩
  · exact ⟨ws, .plain hws⟩
  · have hoffset := h offset data rfl
    obtain ⟨text, htext⟩ := IsOperand.exists_text data
    obtain ⟨address, haddress⟩ := WritesHex.exists_text (by omega : 4 * (offset.toNat % 256) < 2 ^ 32)
    exact ⟨_, .register (Nat.mod_add_div _ _).symm (Nat.mod_lt _ (by decide)) haddress
      (.selected (WritesHex.digitIn?_hexDigit (by omega))) htext⟩

/-- every list of commands can be laid out, one a line -/
theorem exists_laidOut {commands : List TraceCommand}
    (h : ∀ offset data, .register offset data ∈ commands → offset.toNat < 4096) : ∃ text, LaidOut commands text := by
  induction commands with
  | nil => exact ⟨[], .last (.empty isGap_nil .absent)⟩
  | cons command commands ih =>
    obtain ⟨rest, hrest⟩ := ih fun offset data hmem => h offset data (List.mem_cons_of_mem command hmem)
    obtain ⟨ws, hws⟩ := exists_written fun offset data heq => h offset data (heq ▸ List.mem_cons_self)
    exact ⟨_, .cons (.command hws (spaced_unwords ws) .absent) (.inl rfl) hrest⟩

/-- **Laid out commands are read,** whatever their layout. -/
theorem read_laidOut {commands : List TraceCommand} {text : String} (h : LaidOut commands text.toList)
    (revision : Revision) : read revision text = .ok commands :=
  read_eq_ok_iff.2 (forall₂_of_laidOut h revision)

theorem read_append {a b : String} {as bs : List TraceCommand} (ha : read revision a = .ok as)
    (hb : read revision b = .ok bs) : read revision (a ++ "\n" ++ b) = .ok (as ++ bs) := by
  obtain ⟨found, hfound, rfl⟩ := read_eq_ok_iff.1 ha
  obtain ⟨others, hothers, rfl⟩ := read_eq_ok_iff.1 hb
  have hpieces : (a ++ "\n" ++ b).toList.splitOn '\n' = a.toList.splitOn '\n' ++ b.toList.splitOn '\n' := by
    rw [← List.splitOn_append_cons_self]
    simp
  refine read_eq_ok_iff.2 ⟨found ++ others, ?_, List.filterMap_append⟩
  rw [hpieces]
  exact List.rel_append hfound hothers

/-- a text is not read exactly if one of its lines by itself is not -/
theorem exists_error_iff {text : String} : (∃ e, read revision text = .error e) ↔
    ∃ line ∈ text.toList.splitOn '\n', ∃ e, read revision (String.ofList line) = .error e := by
  constructor
  · rintro ⟨e, h⟩
    obtain ⟨i, line, hget, -, hbad, -⟩ := read_eq_error h
    have hmem := List.mem_of_getElem? hget
    refine ⟨line, hmem, ⟨1, e.cause⟩, ?_⟩
    rw [read_line (newline_not_mem_of_mem_splitOn hmem), hbad]
    rfl
  · rintro ⟨line, hmem, e, h⟩
    cases hread : read revision text with
    | error e => exact ⟨e, rfl⟩
    | ok commands =>
      obtain ⟨found, hfound⟩ := readLine_of_read hread line hmem
      rw [read_line (newline_not_mem_of_mem_splitOn hmem), hfound] at h
      cases h

/-- **The layout of a trace does not matter, and an error names the first line that is wrong.** Every list of commands can
be laid out, if its registers are byte offsets with one digit for the chips, and every text that lays it out is read as
that list: values in hexadecimal or in decimal, any blanks around the words, any comments, any lines without a command
in between, and lines that end with or without a carriage return. Two texts that are read can be joined by a line feed,
and so can their commands. A text is not read exactly if one of its lines by itself is not, and then the number of the
first such line is reported, with the cause that this line has. -/
theorem trace_layout (revision : Revision) :
    (∀ commands : List TraceCommand, (∀ offset data, .register offset data ∈ commands → offset.toNat < 4096) →
      ∃ text, LaidOut commands text) ∧
    (∀ (commands : List TraceCommand) (text : String), LaidOut commands text.toList →
      read revision text = .ok commands) ∧
    (∀ (a b : String) (as bs : List TraceCommand), read revision a = .ok as → read revision b = .ok bs →
      read revision (a ++ "\n" ++ b) = .ok (as ++ bs)) ∧
    ∀ text : String,
      ((∃ e, read revision text = .error e) ↔
        ∃ line ∈ text.toList.splitOn '\n', ∃ e, read revision (String.ofList line) = .error e) ∧
      ∀ e, read revision text = .error e → ∃ i line, (text.toList.splitOn '\n')[i]? = some line ∧ e.line = i + 1 ∧
        read revision (String.ofList line) = .error ⟨1, e.cause⟩ ∧
        ∀ before ∈ (text.toList.splitOn '\n').take i, ∃ commands, read revision (String.ofList before) = .ok commands := by
  refine ⟨fun commands h => exists_laidOut h, fun commands text h => read_laidOut h revision,
    fun a b as bs ha hb => read_append ha hb, fun text => ⟨exists_error_iff, fun e h => ?_⟩⟩
  obtain ⟨i, line, hget, hnumber, hbad, hbefore⟩ := read_eq_error h
  refine ⟨i, line, hget, hnumber, ?_, fun before hmem => ?_⟩
  · rw [read_line (newline_not_mem_of_mem_splitOn (List.mem_of_getElem? hget)), hbad]
    rfl
  · obtain ⟨found, hfound⟩ := hbefore before hmem
    refine ⟨found.toList, ?_⟩
    rw [read_line (newline_not_mem_of_mem_splitOn (List.mem_of_mem_take hmem)), hfound]
    rfl

/-- a register write between blanks and a comment, then an empty line and a flush -/
theorem trace_layout_comment :
    LaidOut [.register 580 16, .flush] "\tw 0x110@2 16 # depth\r\n\nflush".toList ∧
    read .voodoo2 "\tw 0x110@2 16 # depth\r\n\nflush" = .ok [.register 580 16, .flush] ∧
    read .voodoo2 ("\tw 0x110@2 16 # depth\r\n\nflush" ++ "\n" ++ "flush") = .ok [.register 580 16, .flush, .flush] := by
  have hwritten : Written (.register 580 16) [['w'], ['0', 'x', '1', '1', '0'] ++ ['@', '2'], ['1', '6']] :=
    .register (by decide : (580 : UInt32).toNat = 68 + 256 * 2) (by decide)
      (.mk (.inl rfl) ⟨by decide +kernel, List.all_eq_true.1 (by decide +kernel)⟩ (by decide +kernel))
      (.selected (by decide)) (.decimal ⟨by simp, List.all_eq_true.1 (by decide)⟩ (by decide))
  have hlaidOut : LaidOut [.register 580 16, .flush] "\tw 0x110@2 16 # depth\r\n\nflush".toList := by
    have htab : isBlank '\t' = true ∧ '\t' ≠ '\n' := ⟨rfl, by decide⟩
    have hspace : isBlank ' ' = true ∧ ' ' ≠ '\n' := ⟨rfl, by decide⟩
    have hcomment : IsComment ['#', ' ', 'd', 'e', 'p', 't', 'h'] := .text (by simp)
    have hfirst := Row.command hwritten (((spaced_unwords _).blank_cons htab).snoc_blank hspace) hcomment
    have hlast := Row.command (.plain .flush) (spaced_unwords _) .absent
    have hchars : "\tw 0x110@2 16 # depth\r\n\nflush".toList = ['\t', 'w', ' ', '0', 'x', '1', '1', '0', '@', '2', ' ',
        '1', '6', ' ', '#', ' ', 'd', 'e', 'p', 't', 'h', '\r', '\n', '\n', 'f', 'l', 'u', 's', 'h'] := by decide +kernel
    rw [hchars]
    exact .cons hfirst (.inr rfl) (.cons (.empty isGap_nil .absent) (.inl rfl) (.last hlast))
  obtain ⟨-, hread, happend, -⟩ := trace_layout .voodoo2
  have hfirst := hread _ _ hlaidOut
  have hlast : read .voodoo2 "flush" = .ok [.flush] := by decide +kernel
  exact ⟨hlaidOut, hfirst, happend _ _ _ _ hfirst hlast⟩

end Trace
end Accel3D
