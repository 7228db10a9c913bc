import SimAgentNet.OpenaiServer.Ledger
import SimAgentNet.Data.Words

/-! # Streamed chunks

The deltas of a streamed response, put together, against the text of the response. -/

namespace SimAgentNet.OpenaiServer

/-- Every white space character of the text is a space, with a character that is no white space on
each side. -/
def SingleSpacedText (text : String) : Prop :=
  Words.SingleSpaced Char.isUnicodeWhitespace ' ' text.toList

theorem splitWhitespace_eq_words (text : List Char) :
    splitWhitespace text = Words.words Char.isUnicodeWhitespace text := by
  unfold splitWhitespace Words.words
  congr!

/-- The chunks put together are the words with a space between them. -/
theorem toList_join_streamTextChunks (text : String) :
    (String.join (streamTextChunks text)).toList =
      Words.joined ' ' (Words.words Char.isUnicodeWhitespace text.toList) := by
  rw [String.toList_join, streamTextChunks, splitWhitespace_eq_words]
  cases Words.words Char.isUnicodeWhitespace text.toList with
  | nil => rfl
  | cons word words =>
    rw [List.flatMap_cons, List.flatMap_map, String.toList_ofList]
    simp only [Words.joined, String.toList_ofList]

theorem join_streamTextChunks_iff (text : String) :
    String.join (streamTextChunks text) = text ↔ SingleSpacedText text := by
  rw [SingleSpacedText, ← Words.joined_words_iff (by decide), ← toList_join_streamTextChunks,
    String.toList_inj]

section
variable {host : Host Mode} {response : Expr Mode} {parts : List (Expr Mode)} {texts : List String}

theorem responseOutputText_of_texts (hcontent : host.exprField response "content" = some (.list parts))
    (hparts : List.Forall₂ (fun part text => responseTextPart part = .ok text) parts texts) :
    responseOutputText host response = .ok (String.join texts) := by
  have hmap : parts.mapM responseTextPart = .ok texts := by
    clear hcontent
    induction hparts with
    | nil => rfl
    | cons hpart _ ih =>
      rw [List.mapM_cons, hpart, ih]
      rfl
  rw [responseOutputText, hcontent]
  show (parts.mapM responseTextPart >>= _) = _
  rw [hmap]
  rfl

/-- A response whose parts are texts has chunks in both modes, and they are the same text exactly
when the texts together are single spaced. -/
theorem streaming_same_text_iff
    (hcontent : host.exprField response "content" = some (.list parts))
    (hparts : List.Forall₂ (fun part text => responseTextPart part = .ok text) parts texts) :
    ∃ chunks chunk, responseDeltaChunks host response true = .ok chunks ∧
      responseDeltaChunks host response false = .ok [chunk] ∧
      (String.join chunks = chunk ↔ SingleSpacedText (String.join texts)) := by
  refine ⟨streamTextChunks (String.join texts), String.join texts, ?_, ?_,
    join_streamTextChunks_iff _⟩
  · rw [responseDeltaChunks, responseOutputText_of_texts hcontent hparts]
    rfl
  · rw [responseDeltaChunks, responseOutputText_of_texts hcontent hparts]
    rfl

end

namespace Sample

/-- A response with one text. -/
def textResponse (text : String) : Expr Unit :=
  .map [(.symbol (.new "content"), .list [.map [(.symbol (.new "type"), .symbol (.new "text")),
    (.symbol (.new "text"), .string text)]])]

end Sample

theorem streaming_same_text_words : ∃ chunks chunk,
    responseDeltaChunks Sample.host (Sample.textResponse "split me now") true = .ok chunks ∧
    responseDeltaChunks Sample.host (Sample.textResponse "split me now") false = .ok [chunk] ∧
    String.join chunks = chunk := by
  obtain ⟨chunks, chunk, hstream, hwhole, hiff⟩ :=
    @streaming_same_text_iff Unit Sample.host (Sample.textResponse "split me now") _ _ rfl
      (.cons (by decide : responseTextPart _ = .ok "split me now") .nil)
  refine ⟨chunks, chunk, hstream, hwhole, hiff.mpr ?_⟩
  rw [show String.join ["split me now"] = "split me now" from rfl, ← join_streamTextChunks_iff]
  decide

/-- A line break is streamed as a space. -/
theorem line_break_streams_as_space :
    responseDeltaChunks Sample.host (Sample.textResponse "a\nb") true = .ok ["a", " b"] ∧
    responseDeltaChunks Sample.host (Sample.textResponse "a\nb") false = .ok ["a\nb"] ∧
    String.join ["a", " b"] ≠ "a\nb" := by
  refine ⟨by decide, by decide, by decide⟩

end SimAgentNet.OpenaiServer
