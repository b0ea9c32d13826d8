import Miaou.Diagnostic.Judgement
import Miaou.Proofs.Diagnostic.Pointing
import Miaou.Proofs.Diagnostic.Window
import Miaou.Proofs.Number.Digits

/-!
The carets under a fault. The full text of a diagnostic has a block of rows with the lines around
the fault. The row of the line at fault is the only one that is marked, and in the row under it
there are carets just under the offending text: a column of the script, a character of the line as
it is shown and a character of the row in front of it are counted alike, whatever the number of the
line.
-/

namespace Miaou

namespace Lines

theorem cut_separated {rows : List String} (some : rows ≠ []) :
    cut (Text.separated "\n" rows).toList = rows.flatMap fun row => cut row.toList := by
  fun_induction Text.separated "\n" rows with
  | case1 => exact absurd rfl some
  | case2 row => simp
  | case3 row rows more ih =>
    have feed : (row ++ "\n" ++ Text.separated "\n" rows).toList =
        row.toList ++ '\n' :: (Text.separated "\n" rows).toList := by simp
    rw [feed, cut_append, ih more, List.flatMap_cons]

theorem flatMap_cut {rows : List String} (h : ∀ row ∈ rows, '\n' ∉ row.toList) :
    (rows.flatMap fun row => cut row.toList) = rows.map String.toList := by
  induction rows with
  | nil => rfl
  | cons row rows ih =>
    rw [List.forall_mem_cons] at h
    rw [List.flatMap_cons, cut_line h.1, ih h.2]
    rfl

end Lines

namespace Text

theorem trimRight_append {shown : List Char} (last : ∀ c ∈ shown.getLast?, isBlank c = false)
    (rest : List Char) : trimRight (shown ++ rest) = shown ++ trimRight rest := by
  have stop : Stops isBlank shown.reverse := by
    rwa [Stops, List.head?_reverse]
  rw [trimRight, List.reverse_append, dropWhile_append_stops stop, List.reverse_append,
    List.reverse_reverse]
  rfl

theorem mem_of_mem_trimRight {c : Char} {cs : List Char} (h : c ∈ trimRight cs) : c ∈ cs := by
  obtain ⟨blanks, split, -⟩ := trimRight_split cs
  rw [split]
  exact List.mem_append_left _ h

end Text

theorem Position.trimRight_line (done : List Char) {rest text : List Char} (here : text <+: rest)
    (ne : text ≠ []) (plain : ∀ c ∈ text, Text.isBlank c = false) :
    ∃ row begun more, (Lines.cut (done ++ rest))[(start.after done).line - 1]? = some row ∧
      Text.trimRight row = begun ++ (text ++ more) ∧
      (start.after done).column = begun.length + 1 := by
  obtain ⟨rest, rfl⟩ := here
  obtain ⟨begun, found, column⟩ := Lines.cut_after 1 [] (by simp) done (text ++ rest)
  have inside : ∀ c ∈ text, decide (c ≠ '\n') = true := by
    intro c hc
    refine decide_eq_true ?_
    rintro rfl
    exact absurd (plain _ hc) (by decide)
  rw [List.takeWhile_append_of_pos inside] at found
  have last : ∀ c ∈ (begun ++ text).getLast?, Text.isBlank c = false := by
    intro c hc
    rw [List.getLast?_append_of_ne_nil _ ne] at hc
    exact plain c (List.mem_of_getLast? hc)
  have shown := Text.trimRight_append last (rest.takeWhile (· ≠ '\n'))
  rw [List.append_assoc, List.append_assoc] at shown
  exact ⟨_, begun, _, found, shown, column⟩

/-- One row is marked, and the row under it has carets under the text, one for each character. -/
def Underlined (text : List Char) (block : List (List Char)) : Prop :=
  ∃ above marked under below indent, block = above ++ marked :: under :: below ∧
    marked.head? = some '>' ∧ (∀ row ∈ above ++ under :: below, row.head? ≠ some '>') ∧
    under = List.replicate indent ' ' ++ List.replicate text.length '^' ∧
    (marked.drop indent).take text.length = text

namespace Diagnostic

def block (d : Diagnostic) (lines : List String) (radius : Nat) : List String :=
  (contextAround lines d.position.line radius).flatMap d.contextRows

theorem judgementWith_block (d : Diagnostic) {lines : List String} {radius : Nat}
    (shown : contextAround lines d.position.line radius ≠ []) :
    ∃ opening closing, d.judgementWith lines radius = Text.separated "\n"
      (opening ++ "Contexte :" :: (d.block lines radius ++ "" :: "État du chat :" :: closing)) := by
  have sections (opening block advice more ending : List String) (title next mood : String) :
      opening ++ ("" :: title :: block) ++ ["", next, mood] ++ advice ++ more ++ ending =
        (opening ++ [""]) ++
          title :: (block ++ "" :: next :: (mood :: advice ++ more ++ ending)) := by
    simp
  have listed : (d.withContext lines radius).context ≠ [] := shown
  rw [judgementWith, judgement, judgementRows, if_neg listed, sections]
  exact ⟨_, _, rfl⟩

theorem head?_gutter (line : ContextLine) (text : List Char) :
    ((gutter line).toList ++ text).head? = some (if line.isFault then '>' else ' ') := by
  unfold gutter
  split <;> simp

theorem newline_not_mem_gutter (line : ContextLine) : '\n' ∉ (gutter line).toList := by
  have digits : '\n' ∉ (Digits.text line.number).toList := by
    intro feed
    rw [Digits.text, String.toList_ofList] at feed
    exact absurd (Digits.isDigit_ofNat line.number _ feed) (by decide)
  unfold gutter
  split <;> simp [spaces, digits]

@[simp] theorem contextRows_plain (d : Diagnostic) {line : ContextLine} (h : line.isFault = false) :
    d.contextRows line = [gutter line ++ line.text] := by
  rw [contextRows, h]
  rfl

theorem contextRows_fault (d : Diagnostic) {line : ContextLine} (h : line.isFault = true) :
    d.contextRows line = [gutter line ++ line.text,
      spaces ((gutter line).length + d.position.column - 1) ++ carets (max d.text.length 1)] := by
  rw [contextRows, h]
  rfl

theorem head?_of_plain (d : Diagnostic) {ls : List ContextLine}
    (plain : ∀ l ∈ ls, l.isFault = false) {row : List Char}
    (h : row ∈ (ls.flatMap d.contextRows).map String.toList) :
    row.head? ≠ some '>' := by
  obtain ⟨text, listed, rfl⟩ := List.mem_map.mp h
  obtain ⟨l, member, shown⟩ := List.mem_flatMap.mp listed
  obtain rfl : text = gutter l ++ l.text := by simpa [plain l member] using shown
  rw [String.toList_append, head?_gutter, plain l member]
  decide

theorem newline_not_mem_block (d : Diagnostic) {source : String} {radius : Nat} {row : String}
    (h : row ∈ d.block (Lines.ofText source) radius) : '\n' ∉ row.toList := by
  obtain ⟨line, listed, shown⟩ := List.mem_flatMap.mp h
  obtain ⟨text, found, same⟩ := exists_of_mem_contextAround listed
  have whole : '\n' ∉ (gutter line ++ line.text).toList := by
    rw [String.toList_append, List.mem_append, not_or, same, String.toList_ofList]
    exact ⟨newline_not_mem_gutter _, fun feed =>
      Lines.newline_not_mem_get? found (Text.mem_of_mem_trimRight feed)⟩
  rw [contextRows] at shown
  rcases List.mem_cons.mp shown with rfl | under
  · exact whole
  · split at under
    · rw [List.mem_singleton.mp under]
      simp [spaces, carets]
    · cases under

theorem block_underlined (d : Diagnostic) {source : String} (radius : Nat)
    {row begun more : List Char} (first : 1 ≤ d.position.line)
    (found : (Lines.cut source.toList)[d.position.line - 1]? = some row)
    (shown : Text.trimRight row = begun ++ (d.text.toList ++ more))
    (column : d.position.column = begun.length + 1) (told : d.text ≠ "") :
    Underlined d.text.toList ((d.block (Lines.ofText source) radius).map String.toList) := by
  have marked := contextAround_isFault (Lines.get?_ofText first found) radius
  rw [String.toList_ofList, Lines.trimRight_dropReturn, shown] at marked
  obtain ⟨above, below, split, plain, -, none⟩ := List.filter_eq_cons_iff.mp marked
  have plainAbove : ∀ l ∈ above, l.isFault = false := fun l member => by simpa using plain l member
  have plainBelow : ∀ l ∈ below, l.isFault = false :=
    fun l member => by simpa using List.filter_eq_nil_iff.mp none l member
  generalize fault : (⟨d.position.line, String.ofList (begun ++ (d.text.toList ++ more)), true⟩ :
    ContextLine) = line at split
  have isFault : line.isFault = true := by rw [← fault]
  have filled : max d.text.length 1 = d.text.toList.length := by
    rw [String.length_toList]
    have some : d.text.length ≠ 0 := fun none => told (String.length_eq_zero_iff.mp none)
    omega
  -- The carets begin behind the gutter and behind what stands on the line before the text.
  have indent : (gutter line).length + d.position.column - 1 =
      (gutter line).toList.length + begun.length := by
    rw [String.length_toList, column]
    omega
  refine ⟨(above.flatMap d.contextRows).map String.toList, (gutter line ++ line.text).toList,
    (spaces ((gutter line).length + d.position.column - 1) ++
      carets (max d.text.length 1)).toList,
    (below.flatMap d.contextRows).map String.toList,
    (gutter line).toList.length + begun.length, ?_, ?_, fun row member => ?_, ?_, ?_⟩
  · rw [block, split, List.flatMap_append, List.flatMap_cons, contextRows_fault d isFault]
    simp
  · rw [String.toList_append, head?_gutter, isFault]
    rfl
  · rw [List.mem_append, List.mem_cons] at member
    rcases member with member | rfl | member
    · exact head?_of_plain d plainAbove member
    · intro mark
      have inside := List.mem_of_mem_head? mark
      simp [spaces, carets] at inside
    · exact head?_of_plain d plainBelow member
  · rw [indent, filled]
    simp [spaces, carets]
  · rw [String.toList_append, ← fault, String.toList_ofList, List.drop_length_add_append,
      List.drop_left, List.take_left]

end Diagnostic

theorem Catalog.tokenize_quotes {c : Catalog} {file source : String} {d : Diagnostic}
    (h : c.tokenize file source = .rejected d) (told : d.text ≠ "") :
    ∃ done rest, source.toList = done ++ rest ∧ d.position = Position.start.after done ∧
      d.text.toList <+: rest := by
  obtain ⟨fault, definition, refused, -, rfl⟩ := verdict_rejected h
  rcases Layout.tokens_error refused with broken | ⟨width, first, -, rfl⟩
  · cases Piece.ofScript_found _ _ broken with
    | broken here begins read =>
      refine ⟨_, _, here, rfl, ?_⟩
      change (String.ofList _).toList <+: _
      rw [String.toList_ofList]
      have refused := Lexeme.read_refused read
      exact refused.text_prefix
  · exact absurd rfl told

/-- The carets in the full text of a diagnostic of the lexer are just under the text it quotes. -/
theorem Catalog.tokenize_underlined {c : Catalog} {file source : String} {d : Diagnostic}
    (h : c.tokenize file source = .rejected d) (told : d.text ≠ "")
    (plain : ∀ x ∈ d.text.toList, Text.isBlank x = false) (radius : Nat) :
    ∃ opening block closing,
      Lines.cut (d.judgementWith (Lines.ofText source) radius).toList =
        opening ++ "Contexte :".toList :: (block ++ [] :: "État du chat :".toList :: closing) ∧
      block = (d.block (Lines.ofText source) radius).map String.toList ∧
      Underlined d.text.toList block := by
  obtain ⟨done, rest, same, place, here⟩ := tokenize_quotes h told
  have ne : d.text.toList ≠ [] := fun none => told (String.toList_eq_nil_iff.mp none)
  obtain ⟨row, begun, more, found, shown, column⟩ := Position.trimRight_line done here ne plain
  have first := Position.line_le_after Position.start done
  rw [← same, ← place] at found
  rw [← place] at column first
  have underlined := d.block_underlined radius first found shown column told
  have some : contextAround (Lines.ofText source) d.position.line radius ≠ [] := by
    intro none
    obtain ⟨above, marked, under, below, indent, block, -⟩ := underlined
    rw [Diagnostic.block, none] at block
    simp at block
  obtain ⟨opening, closing, text⟩ := d.judgementWith_block some
  refine ⟨opening.flatMap fun row => Lines.cut row.toList, _,
    closing.flatMap fun row => Lines.cut row.toList, ?_, rfl, underlined⟩
  rw [text, Lines.cut_separated (by simp), List.flatMap_append, List.flatMap_cons,
    List.flatMap_append, Lines.flatMap_cut fun row => d.newline_not_mem_block]
  rfl

theorem Catalog.tokenize_underlined_accents :
    ∃ d, standard.tokenize "chat.miaou" "miaou\n\tété = 99999999999999999999 \r\nmeow" =
        .rejected d ∧ d.text ≠ "" ∧ (∀ x ∈ d.text.toList, Text.isBlank x = false) ∧
      ∃ opening block closing,
        Lines.cut (d.judgementWith
            (Lines.ofText "miaou\n\tété = 99999999999999999999 \r\nmeow") 0).toList =
          opening ++ "Contexte :".toList :: (block ++ [] :: "État du chat :".toList :: closing) ∧
        block = [">   2 | \tété = 99999999999999999999".toList,
          "               ^^^^^^^^^^^^^^^^^^^^".toList] ∧
        Underlined "99999999999999999999".toList block := by
  have refused : Miaou.tokenize "miaou\n\tété = 99999999999999999999 \r\nmeow" =
      .error ⟨.overflow, ⟨2, 8⟩, "99999999999999999999"⟩ := by decide +kernel
  obtain ⟨definition, -, rejected⟩ := standard_wordsScripts.verdict _
  rw [← refused] at rejected
  have told : "99999999999999999999" ≠ "" := by decide
  have plain : ∀ x ∈ "99999999999999999999".toList, Text.isBlank x = false := by
    have all : "99999999999999999999".toList.all (fun x => !Text.isBlank x) = true := by
      decide +kernel
    intro x hx
    simpa using List.all_eq_true.mp all x hx
  obtain ⟨opening, block, closing, text, same, underlined⟩ :=
    tokenize_underlined rejected told plain 0
  refine ⟨_, rejected, told, plain, opening, block, closing, text, ?_, underlined⟩
  have shown : contextAround (Lines.ofText "miaou\n\tété = 99999999999999999999 \r\nmeow") 2 0 =
      [⟨2, "\tété = 99999999999999999999", true⟩] := by decide +kernel
  have rows (d : Diagnostic) (place : d.position = ⟨2, 8⟩)
      (text : d.text = "99999999999999999999") :
      ([(⟨2, "\tété = 99999999999999999999", true⟩ : ContextLine)].flatMap d.contextRows).map
        String.toList = [">   2 | \tété = 99999999999999999999".toList,
          "               ^^^^^^^^^^^^^^^^^^^^".toList] := by
    rw [List.flatMap_singleton, d.contextRows_fault rfl, place, text]
    decide +kernel
  rw [same, Diagnostic.block]
  change ((contextAround _ 2 0).flatMap _).map String.toList = _
  rw [shown]
  exact rows _ rfl rfl

end Miaou
