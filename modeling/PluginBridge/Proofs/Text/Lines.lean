import PluginBridge.LineBuffer

/-!
# Lines of a text that arrives in chunks

When a text goes on, only its last piece changes (`splitOn_append`).  So it does not matter how a
stream is cut: pushing two chunks in turn is pushing them as one (`push_append`), and so is pushing
any number of them (`push_join`).  One push looks for the last break (`push_of_unbroken`,
`push_of_break`); what it does is to release every piece but the last (`push_eq_pieces`).

`lines_of_chunks` says what this comes to for a whole stream: each piece of its text between line
breaks is released by the chunk that brings the break after it, and the last one is pending.
-/

namespace PluginBridge

namespace Text

/-- The pieces of a text that goes on: the last piece takes up what follows. -/
theorem splitOn_append (sep : Char) (text more : List Char) :
    (text ++ more).splitOn sep =
      (text.splitOn sep).dropLast ++ ((text.splitOn sep).getLastD [] ++ more).splitOn sep := by
  induction text with
  | nil => simp
  | cons c rest ih =>
    obtain ⟨piece, pieces, hpieces⟩ := List.exists_cons_of_ne_nil (List.splitOn_ne_nil sep rest)
    rw [hpieces] at ih
    rw [List.cons_append, List.splitOn_cons_eq_if_modifyHead, List.splitOn_cons_eq_if_modifyHead,
      ih, hpieces]
    split
    · simp
    · rename_i hc
      cases pieces with
      | nil => simp [List.splitOn_cons_eq_if_modifyHead, hc]
      | cons next pieces => simp

/-- A text without a separator is the beginning of the first piece of what follows it. -/
theorem splitOn_append_of_notMem {sep : Char} {front : List Char} (h : sep ∉ front)
    (text : List Char) :
    (front ++ text).splitOn sep = (text.splitOn sep).modifyHead (front ++ ·) := by
  obtain ⟨piece, pieces, hpieces⟩ := List.exists_cons_of_ne_nil (List.splitOn_ne_nil sep text)
  induction front with
  | nil => simp [hpieces]
  | cons c front ih =>
    obtain ⟨hc, hfront⟩ : sep ≠ c ∧ sep ∉ front := by simpa using h
    rw [List.cons_append, List.splitOn_cons_eq_if_modifyHead, ih hfront, hpieces,
      if_neg (by simpa using Ne.symm hc)]
    simp

/-- There is one piece more than there are separators. -/
theorem length_splitOn (sep : Char) (text : List Char) :
    (text.splitOn sep).length = text.count sep + 1 := by
  induction text with
  | nil => rfl
  | cons c rest ih =>
    rw [List.splitOn_cons_eq_if_modifyHead, List.count_cons]
    split <;> simp [ih]

/-- The pieces before the last, each with its separator, and then the last one make the text
again. -/
theorem flatMap_splitOn (sep : Char) (text : List Char) :
    ((text.splitOn sep).dropLast.flatMap (· ++ [sep])) ++ (text.splitOn sep).getLastD [] =
      text := by
  induction text with
  | nil => rfl
  | cons c rest ih =>
    obtain ⟨piece, pieces, hpieces⟩ := List.exists_cons_of_ne_nil (List.splitOn_ne_nil sep rest)
    rw [hpieces] at ih
    rw [List.splitOn_cons_eq_if_modifyHead, hpieces]
    split
    · rename_i hc
      have hsep : c = sep := by simpa using hc
      simpa [hsep] using ih
    · cases pieces <;> simpa using ih

end Text

namespace LineBuffer

/-! ## One push -/

/-- The pieces between the line breaks of the pending text and a chunk after it.  There is at
least one: text without a break is one piece. -/
def pieces (buffer : LineBuffer) (chunk : String) : List (List Char) :=
  (buffer.pending ++ chunk).toList.splitOn '\n'

/-- Text without a break releases nothing. -/
theorem push_of_unbroken (buffer : LineBuffer) {chunk : String}
    (h : '\n' ∉ (buffer.pending ++ chunk).toList) :
    (buffer.push chunk).1.pending = buffer.pending ++ chunk ∧ (buffer.push chunk).2 = [] := by
  have hcut := Text.splitAtLast_eq_none_iff.2 h
  rw [push]
  split
  · exact ⟨rfl, rfl⟩
  · rename_i hsome
    cases hcut.symm.trans hsome

/-- All that is before the last break is released, and what is after it stays. -/
theorem push_of_break (buffer : LineBuffer) {chunk : String} {before after : List Char}
    (h : (buffer.pending ++ chunk).toList = before ++ '\n' :: after) (hlast : '\n' ∉ after) :
    (buffer.push chunk).1.pending = String.ofList after ∧
      (buffer.push chunk).2 = (before.splitOn '\n').map String.ofList := by
  have hcut := Text.splitAtLast_eq_some_iff.2 ⟨h, hlast⟩
  rw [push]
  split
  · rename_i hnone
    cases hcut.symm.trans hnone
  · rename_i hsome
    cases hcut.symm.trans hsome
    exact ⟨rfl, rfl⟩

/-- Every piece but the last is released, and the last one stays. -/
theorem push_eq_pieces (buffer : LineBuffer) (chunk : String) :
    (buffer.push chunk).1.pending = String.ofList ((buffer.pieces chunk).getLastD []) ∧
      (buffer.push chunk).2 = (buffer.pieces chunk).dropLast.map String.ofList := by
  rw [pieces]
  cases hcut : Text.splitAtLast '\n' (buffer.pending ++ chunk).toList with
  | none =>
    have hunbroken := Text.splitAtLast_eq_none_iff.1 hcut
    obtain ⟨hpending, hlines⟩ := buffer.push_of_unbroken hunbroken
    rw [hpending, hlines, List.splitOn_eq_singleton hunbroken]
    simp
  | some cut =>
    obtain ⟨htext, hlast⟩ := Text.splitAtLast_eq_some_iff.1 hcut
    obtain ⟨hpending, hlines⟩ := buffer.push_of_break htext hlast
    rw [hpending, hlines, htext, List.splitOn_append_cons_self, List.splitOn_eq_singleton hlast]
    simp [List.getLastD_eq_getLast?]

theorem pending_push (buffer : LineBuffer) (chunk : String) :
    (buffer.push chunk).1.pending = String.ofList ((buffer.pieces chunk).getLastD []) :=
  (buffer.push_eq_pieces chunk).1

theorem lines_push (buffer : LineBuffer) (chunk : String) :
    (buffer.push chunk).2 = (buffer.pieces chunk).dropLast.map String.ofList :=
  (buffer.push_eq_pieces chunk).2

@[simp] theorem push_empty_text (buffer : LineBuffer) : buffer.push "" = (buffer, []) := by
  have hunbroken : '\n' ∉ (buffer.pending ++ "").toList := by
    rw [String.append_empty]
    exact buffer.unbroken
  obtain ⟨hpending, hlines⟩ := buffer.push_of_unbroken hunbroken
  rw [String.append_empty] at hpending
  exact Prod.ext (LineBuffer.ext hpending) hlines

/-- Two chunks in turn do what they do as one. -/
theorem push_append (buffer : LineBuffer) (chunk more : String) :
    buffer.push (chunk ++ more) =
      (((buffer.push chunk).1.push more).1,
        (buffer.push chunk).2 ++ ((buffer.push chunk).1.push more).2) := by
  have hpieces : buffer.pieces (chunk ++ more) =
      (buffer.pieces chunk).dropLast ++ (buffer.push chunk).1.pieces more := by
    rw [pieces, pieces, pieces, pending_push, pieces, String.toList_append, String.toList_append,
      String.toList_append, String.toList_append, String.toList_ofList, ← List.append_assoc]
    exact Text.splitOn_append '\n' _ _
  have hne : (buffer.push chunk).1.pieces more ≠ [] := List.splitOn_ne_nil _ _
  have hpending : (buffer.push (chunk ++ more)).1 = ((buffer.push chunk).1.push more).1 := by
    apply LineBuffer.ext
    rw [pending_push, pending_push, hpieces, List.getLastD_eq_getLast?, List.getLast?_append,
      List.getLastD_eq_getLast?, List.getLast?_eq_some_getLast hne, Option.some_or]
  have hlines : (buffer.push (chunk ++ more)).2 =
      (buffer.push chunk).2 ++ ((buffer.push chunk).1.push more).2 := by
    rw [lines_push, lines_push, lines_push, hpieces, List.dropLast_append_of_ne_nil hne,
      List.map_append]
  exact Prod.ext hpending hlines

/-- A push releases one line for each break of its chunk. -/
theorem length_lines_push (buffer : LineBuffer) (chunk : String) :
    (buffer.push chunk).2.length = chunk.toList.count '\n' := by
  rw [lines_push, pieces, String.toList_append, Text.splitOn_append_of_notMem buffer.unbroken,
    List.length_map, List.length_dropLast, List.length_modifyHead, Text.length_splitOn,
    Nat.add_sub_cancel]

/-! ## A whole stream -/

/-- Pushes chunks in order: the buffer after the last one, and the lines that each releases. -/
def pushAll (buffer : LineBuffer) : List String → LineBuffer × List (List String)
  | [] => (buffer, [])
  | chunk :: rest =>
    let (next, lines) := buffer.push chunk
    let (last, log) := next.pushAll rest
    (last, lines :: log)

/-- Chunks in turn do what they do as one. -/
theorem push_join (buffer : LineBuffer) (chunks : List String) :
    buffer.push (String.join chunks) =
      ((buffer.pushAll chunks).1, (buffer.pushAll chunks).2.flatten) := by
  induction chunks generalizing buffer with
  | nil => exact push_empty_text buffer
  | cons chunk rest ih => rw [String.join_cons, push_append, ih, pushAll, List.flatten_cons]

theorem pushAll_append (buffer : LineBuffer) (before after : List String) :
    buffer.pushAll (before ++ after) =
      (((buffer.pushAll before).1.pushAll after).1,
        (buffer.pushAll before).2 ++ ((buffer.pushAll before).1.pushAll after).2) := by
  induction before generalizing buffer with
  | nil => rfl
  | cons chunk rest ih => simp [pushAll, ih]

theorem length_pushAll (buffer : LineBuffer) (chunks : List String) :
    (buffer.pushAll chunks).2.length = chunks.length := by
  induction chunks generalizing buffer with
  | nil => rfl
  | cons chunk rest ih => simp [pushAll, ih]

/-- The lines that a chunk in the middle of a stream releases. -/
theorem getElem?_pushAll (buffer : LineBuffer) (before : List String) (chunk : String)
    (after : List String) :
    (buffer.pushAll (before ++ chunk :: after)).2[before.length]? =
      some ((buffer.pushAll before).1.push chunk).2 := by
  rw [pushAll_append, ← buffer.length_pushAll before, List.getElem?_append_right (Nat.le_refl _),
    Nat.sub_self, pushAll, List.getElem?_cons_zero]

/-- The pieces of a text between its line breaks, the last one included. -/
def piecesOf (text : String) : List String :=
  (text.toList.splitOn '\n').map String.ofList

/-- The pieces spell the text: each but the last is followed by a break. -/
theorem join_piecesOf (text : String) :
    String.join ((piecesOf text).dropLast.map (· ++ "\n")) ++ (piecesOf text).getLastD "" =
      text := by
  have hsplit := Text.flatMap_splitOn '\n' text.toList
  rw [List.getLastD_eq_getLast?] at hsplit
  apply String.toList_injective
  rw [String.toList_append, String.toList_join, piecesOf, ← List.map_dropLast, List.map_map,
    List.flatMap_map, List.getLastD_eq_getLast?, List.getLast?_map]
  cases hlast : (text.toList.splitOn '\n').getLast? <;> simpa [hlast] using hsplit

theorem pieces_empty (text : String) : empty.pieces text = text.toList.splitOn '\n' := by
  rw [pieces, show empty.pending = "" from rfl, String.empty_append]

/-- The lines of a stream are the pieces of its text before the last one. -/
theorem flatten_pushAll_empty (chunks : List String) :
    (empty.pushAll chunks).2.flatten = (piecesOf (String.join chunks)).dropLast := by
  have hlines : (empty.pushAll chunks).2.flatten = (empty.push (String.join chunks)).2 := by
    rw [push_join]
  rw [hlines, lines_push, pieces_empty, piecesOf, List.map_dropLast]

/-- What is pending at the end of a stream is the last piece of its text. -/
theorem pending_pushAll_empty (chunks : List String) :
    (piecesOf (String.join chunks)).getLast? = some (empty.pushAll chunks).1.pending := by
  have hpending : (empty.pushAll chunks).1 = (empty.push (String.join chunks)).1 := by
    rw [push_join]
  rw [hpending, pending_push, pieces_empty, piecesOf, List.getLast?_map,
    List.getLastD_eq_getLast?, List.getLast?_eq_some_getLast (List.splitOn_ne_nil _ _),
    Option.map_some, Option.getD_some]

/-- **Cuts do not matter.**  However a text is cut into chunks, the lines that the pushes release
are its pieces between line breaks, the last of which stays pending.  None of them holds a break;
each line with a break after it, and then what is pending, spell the text again.  A chunk releases
the lines that end in it: one for each of its breaks, and those that the text up to its end has
and the text before it has not. -/
theorem lines_of_chunks (chunks : List String) :
    (empty.pushAll chunks).2.flatten = (piecesOf (String.join chunks)).dropLast ∧
    (piecesOf (String.join chunks)).getLast? = some (empty.pushAll chunks).1.pending ∧
    let log := (empty.pushAll chunks).2
    let pending := (empty.pushAll chunks).1.pending
    (∀ line ∈ log.flatten, '\n' ∉ line.toList) ∧ '\n' ∉ pending.toList ∧
    String.join (log.flatten.map (· ++ "\n")) ++ pending = String.join chunks ∧
    ∀ before chunk after, chunks = before ++ chunk :: after →
      ∃ lines, log[before.length]? = some lines ∧
        lines.length = chunk.toList.count '\n' ∧
        (piecesOf (String.join (before ++ [chunk]))).dropLast =
          (piecesOf (String.join before)).dropLast ++ lines := by
  have hlog := flatten_pushAll_empty chunks
  have hpending := pending_pushAll_empty chunks
  refine ⟨hlog, hpending, ?_⟩
  intro log pending
  refine ⟨?_, LineBuffer.unbroken _, ?_, ?_⟩
  · intro line hline
    rw [hlog, piecesOf, ← List.map_dropLast] at hline
    obtain ⟨piece, hpiece, rfl⟩ := List.mem_map.1 hline
    rw [String.toList_ofList]
    exact Text.notMem_of_mem_splitOn ((List.dropLast_sublist _).subset hpiece)
  · have hlast : (piecesOf (String.join chunks)).getLastD "" = pending := by
      rw [List.getLastD_eq_getLast?, hpending, Option.getD_some]
    rw [hlog, ← hlast, join_piecesOf]
  · rintro before chunk after rfl
    refine ⟨_, getElem?_pushAll empty before chunk after, length_lines_push _ chunk, ?_⟩
    rw [← flatten_pushAll_empty, ← flatten_pushAll_empty, pushAll_append, List.flatten_append]
    simp [pushAll]

end LineBuffer

end PluginBridge
