import Nucleus.Log.Line
import Nucleus.Proofs.Texts
import Mathlib.Tactic.SplitIfs

/-!
# Line ends, text by text

A text is handed to the console line by line: what stands before a line feed, then the console's line end, and in the end what no
line feed ends. `writeText` is this loop over the characters of a text, and it hands over the very pieces that the bytes of the text
are cut into (`writeText_eq`), since no other character has a line feed among its bytes. So the stream that arrives is made of the
bytes one by one, and where a text was cut before it was written cannot be seen in it (`line_ends_translated`).
-/

namespace Nucleus

/-! ## The loop over lines -/

/-- The lines of a text, each with the line feed that ends it. What follows the last line feed is a line too, unless nothing does. -/
def splitLines : List Char → List (List Char)
  | [] => []
  | c :: rest =>
    if c = '\n' then ['\n'] :: splitLines rest
    else
      match splitLines rest with
      | [] => [[c]]
      | line :: lines => (c :: line) :: lines

/-- The bytes of some characters in UTF-8. -/
def charBytes (text : List Char) : List UInt8 := text.flatMap String.utf8EncodeChar

/-- What a line is handed over in: what stands before its line feed, then the line end; or all of it, if no line feed ends it. -/
def lineChunks (line : List Char) : List (List UInt8) :=
  if line.getLast? = some '\n' then [charBytes line.dropLast, consoleLineEnd] else [charBytes line]

/-- What a text is handed over in. -/
def writeText (text : String) : List (List UInt8) := (splitLines text.toList).flatMap lineChunks

/-- No line is empty. -/
theorem ne_nil_of_mem_splitLines {text line : List Char} (h : line ∈ splitLines text) : line ≠ [] := by
  induction text generalizing line with
  | nil => cases h
  | cons c rest ih =>
    rw [splitLines] at h
    split at h
    · rcases List.mem_cons.mp h with rfl | h
      · exact List.cons_ne_nil _ _
      · exact ih h
    · split at h
      · rw [List.mem_singleton.mp h]
        exact List.cons_ne_nil _ _
      · rename_i first lines hl
        rcases List.mem_cons.mp h with rfl | h
        · exact List.cons_ne_nil _ _
        · exact ih (hl ▸ List.mem_cons_of_mem _ h)

/-! ## The bytes of characters -/

/-- The bytes of a text are those of its characters. -/
theorem textBytes_eq_charBytes (text : String) : textBytes text = charBytes text.toList := by
  have he : text.toByteArray = text.toList.utf8Encode := by
    rw [← String.toByteArray_ofList, String.ofList_toList]
  rw [textBytes_eq, he]
  simp [List.utf8Encode, charBytes]

/-- All bytes of a character that takes more than one are from 128 on. -/
theorem le_toNat_of_mem_utf8EncodeChar {c : Char} (h : 127 < c.val.toNat) :
    ∀ byte ∈ String.utf8EncodeChar c, 128 ≤ byte.toNat := by
  unfold String.utf8EncodeChar
  dsimp only
  rw [if_neg (Nat.not_le.mpr h)]
  split_ifs <;>
    simp only [List.forall_mem_cons, UInt8.toNat_ofNat', List.not_mem_nil, false_implies, implies_true, and_true] <;> omega

/-- No character but the line feed has a line feed among its bytes. -/
theorem lineFeed_not_mem_utf8EncodeChar {c : Char} (h : c ≠ '\n') : lineFeed ∉ String.utf8EncodeChar c := by
  have hv : c.val.toNat ≠ 10 := fun hc => h (Char.ext (UInt32.toNat_inj.mp hc))
  intro hm
  rcases Nat.lt_or_ge 127 c.val.toNat with hlong | hshort
  · exact absurd (le_toNat_of_mem_utf8EncodeChar hlong lineFeed hm) (by decide)
  · rw [String.utf8EncodeChar, if_pos hshort, List.mem_singleton, ← UInt8.toNat_inj, UInt8.toNat_ofNat'] at hm
    have hfeed : lineFeed.toNat = 10 := rfl
    omega

/-! ## Lines and pieces -/

/-- Bytes without a line feed in front of some pieces go in front of the first one. -/
theorem foldr_prependByte {bytes : List UInt8} (h : lineFeed ∉ bytes) (first : List UInt8) (pieces : List (List UInt8)) :
    bytes.foldr prependByte (first :: pieces) = (bytes ++ first) :: pieces := by
  induction bytes with
  | nil => rfl
  | cons byte rest ih =>
    have hbyte : byte ≠ lineFeed := fun he => h (he ▸ List.mem_cons_self)
    rw [List.foldr_cons, ih fun hm => h (List.mem_cons_of_mem _ hm), prependByte, if_neg hbyte]
    rfl

/-- In front of nothing they are a piece of their own. -/
theorem consolePieces_of_not_mem {bytes : List UInt8} (h : lineFeed ∉ bytes) (hne : bytes ≠ []) : consolePieces bytes = [bytes] := by
  obtain ⟨front, last, rfl⟩ := List.eq_nil_or_concat bytes |>.resolve_left hne
  rw [List.concat_eq_append] at h ⊢
  have hlast : last ≠ lineFeed := fun he => h (by simp [he])
  have hfront : lineFeed ∉ front := fun hm => h (List.mem_append_left _ hm)
  have hpiece : prependByte last [] = [[last]] := if_neg hlast
  rw [consolePieces, List.foldr_append, List.foldr_cons, List.foldr_nil, hpiece, foldr_prependByte hfront]

/-- One more character in front of a line goes in front of its first chunk. -/
theorem lineChunks_cons (c : Char) {line : List Char} (hne : line ≠ []) :
    ∃ first more, lineChunks line = first :: more ∧ lineChunks (c :: line) = (String.utf8EncodeChar c ++ first) :: more := by
  obtain ⟨d, rest, rfl⟩ := List.exists_cons_of_ne_nil hne
  unfold lineChunks
  rw [List.getLast?_cons_cons, List.dropLast_cons_of_ne_nil hne]
  split
  · exact ⟨_, _, rfl, rfl⟩
  · exact ⟨_, _, rfl, rfl⟩

/-- By itself it is a line without an end. -/
theorem lineChunks_singleton {c : Char} (hc : c ≠ '\n') : lineChunks [c] = [String.utf8EncodeChar c] := by
  have hlast : [c].getLast? ≠ some '\n' := fun h => hc (Option.some.inj h)
  rw [lineChunks, if_neg hlast, charBytes, List.flatMap_singleton]

/-- The lines of a text come to the pieces of its bytes. -/
theorem flatMap_lineChunks (text : List Char) : (splitLines text).flatMap lineChunks = consolePieces (charBytes text) := by
  induction text with
  | nil => rfl
  | cons c rest ih =>
    have hbytes : consolePieces (charBytes (c :: rest)) =
        (String.utf8EncodeChar c).foldr prependByte (consolePieces (charBytes rest)) := by
      rw [charBytes, List.flatMap_cons, consolePieces, List.foldr_append]
      rfl
    rw [hbytes, ← ih, splitLines]
    split
    · rename_i hc
      rw [hc]
      rfl
    · rename_i hc
      have hfeed := lineFeed_not_mem_utf8EncodeChar hc
      split
      · rename_i hn
        rw [hn, List.flatMap_singleton, lineChunks_singleton hc]
        exact (consolePieces_of_not_mem hfeed (by simp)).symm
      · rename_i line lines hl
        obtain ⟨first, more, hline, hcons⟩ := lineChunks_cons c (ne_nil_of_mem_splitLines (hl ▸ List.mem_cons_self))
        rw [hl, List.flatMap_cons, List.flatMap_cons, hcons, hline, List.cons_append, List.cons_append, foldr_prependByte hfeed]

/-- So a text is handed over in the pieces that its bytes are cut into. -/
theorem writeText_eq (text : String) : writeText text = consolePieces (textBytes text) := by
  rw [writeText, flatMap_lineChunks, textBytes_eq_charBytes]

/-- The bytes of texts put together are their bytes, one text after another. -/
theorem textBytes_join (texts : List String) : textBytes (String.join texts) = texts.flatMap textBytes := by
  rw [textBytes_eq_charBytes, String.toList_join, charBytes, List.flatMap_assoc]
  exact congrArg texts.flatMap (funext fun text => (textBytes_eq_charBytes text).symm)

/-- The stream of several texts is that of their bytes. -/
theorem flatten_writePieces (texts : List String) : (writePieces texts).flatten = consoleBytes (texts.flatMap textBytes) := by
  induction texts with
  | nil => rfl
  | cons text rest ih =>
    have hcons : writePieces (text :: rest) = consolePieces (textBytes text) ++ writePieces rest := rfl
    rw [hcons, List.flatten_append, flatten_consolePieces, ih, consoleBytes, consoleBytes, ← List.flatMap_append, List.flatMap_cons,
      consoleBytes]

/-- Whatever texts are written one after another, and however they are cut, the stream that reaches the console consists of the bytes
of all texts put together, with every line feed replaced by the console's line end and every other byte kept. So texts that are the
same when put together bring the same stream, and the logger brings it for a line in whatever parts the line is written. -/
theorem line_ends_translated (texts : List String) :
    texts.flatMap writeText = writePieces texts ∧
    (texts.flatMap writeText).flatten = consoleBytes (textBytes (String.join texts)) ∧
    (∀ others, String.join others = String.join texts → (others.flatMap writeText).flatten = (texts.flatMap writeText).flatten) ∧
    ∀ (logger : Logger) level origin message, logger.threshold.admits level = true →
      String.join texts = logLine level origin message → (texts.flatMap writeText).flatten = logger.write level origin message := by
  have hpieces : ∀ texts : List String, texts.flatMap writeText = writePieces texts :=
    fun texts => congrArg texts.flatMap (funext writeText_eq)
  have hstream : ∀ texts : List String, (texts.flatMap writeText).flatten = consoleBytes (textBytes (String.join texts)) := by
    intro texts
    rw [hpieces, flatten_writePieces, textBytes_join]
  refine ⟨hpieces texts, hstream texts, fun others he => ?_, fun logger level origin message hl he => ?_⟩
  · rw [hstream, hstream, he]
  · have hline : String.join [logLine level origin message] = String.join texts := by
      rw [he, String.join_cons, String.join_nil, String.append_empty]
    rw [Logger.write, if_pos hl, ← hpieces, hstream, hstream, hline]

/-- A text with a carriage return, an empty line and a long character, cut between the carriage return and the line feed, and cut
elsewhere. -/
theorem severed_translated :
    ["é\r", "\n\nb"].flatMap writeText = [[195, 169, 13], [], [13, 10], [], [13, 10], [98]] ∧
      (["é\r", "\n\nb"].flatMap writeText).flatten = [195, 169, 13, 13, 10, 13, 10, 98] ∧
      (["é", "\r\n", "", "\nb"].flatMap writeText).flatten = [195, 169, 13, 13, 10, 13, 10, 98] := by
  obtain ⟨-, hstream, hcut, -⟩ := line_ends_translated ["é\r", "\n\nb"]
  have hbytes : consoleBytes (textBytes (String.join ["é\r", "\n\nb"])) = [195, 169, 13, 13, 10, 13, 10, 98] := by
    rw [textBytes_eq_charBytes]
    decide +kernel
  exact ⟨by decide +kernel, hstream.trans hbytes, (hcut _ (by decide)).trans (hstream.trans hbytes)⟩

end Nucleus
