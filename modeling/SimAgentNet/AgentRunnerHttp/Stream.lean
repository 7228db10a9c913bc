import SimAgentNet.Data.Lines
import SimAgentNet.Data.Run
import SimAgentNet.OpenaiServer.Keys
import SimAgentNet.OpenaiServer.Tools

/-! # Decoding provider streams

The decoders of the streams of OpenAI and Ollama. The line decoder, the JSON parser and what the
codecs make of values are parameters. Sums of tokens wrap. -/

namespace SimAgentNet.AgentRunnerHttp
open OpenaiServer (Json trim)

variable {Mode Buffer : Type}

inductive Error where
  | eval (message : String)
deriving DecidableEq

/-- Usage of a response; the cost is kept as its text. -/
structure ModelUsage (Mode : Type) where
  inputTokens : Option UInt64 := none
  outputTokens : Option UInt64 := none
  latencyMs : Option UInt64 := none
  costUsd : Option String := none
  extra : List (Expr Mode × Expr Mode) := []

structure ModelResponse (Mode : Type) where
  runner : Symbol
  model : String
  content : List (Expr Mode)
  stopReason : Symbol
  usage : Option (ModelUsage Mode)
  extra : List (Expr Mode × Expr Mode)

def ModelResponse.new (runner : Symbol) (model : String) (content : List (Expr Mode))
    (stopReason : Symbol) : ModelResponse Mode := ⟨runner, model, content, stopReason, none, []⟩

structure ModelEvent (Mode : Type) where
  event : Symbol
  runner : Symbol
  model : String
  spanId : Expr Mode
  response : Option (ModelResponse Mode)
  extra : List (Expr Mode × Expr Mode)

/-- What the decoders use of the JSON parser and of the codecs of numbers, texts and usages. -/
structure StreamCodecs (Mode : Type) where
  fromStr : String → Except String Json
  utf8Error : List UInt8 → String
  projectJsonToExpr : Json → Expr Mode
  jsonNumberToU64 : Json → Option UInt64
  numberField : String → UInt64 → Expr Mode × Expr Mode
  textPart : String → Expr Mode
  usageExpr : ModelUsage Mode → Expr Mode

/-- Takes bytes and returns the lines that have ended. -/
structure LineDecoder (Buffer : Type) where
  new : Buffer
  push : Buffer → List UInt8 → List (List UInt8) × Buffer
  flush : Buffer → Option (List UInt8)
  buffered : Buffer → List UInt8

/-- What a decoder has made of the lines so far, and the events that its sink has got. -/
structure Decoded (Mode : Type) where
  combined : String := ""
  usage : Option (ModelUsage Mode) := none
  stopReason : Symbol := .new "stop"
  rawChunks : List (Expr Mode) := []
  providerChunks : Nat := 0
  events : List (ModelEvent Mode) := []

/-- What stays the same in a decoder. -/
structure StreamSource (Mode : Type) where
  runner : Symbol
  model : String
  spanId : Expr Mode
  includeRaw : Bool

structure StreamDecoder (Mode Buffer : Type) where
  source : StreamSource Mode
  lines : Buffer
  decoded : Decoded Mode

/-! ## Events -/

namespace StreamSource

def event (source : StreamSource Mode) (name key : String) (value : Expr Mode) :
    ModelEvent Mode where
  event := .new name
  runner := source.runner
  model := source.model
  spanId := source.spanId
  response := none
  extra := [(.symbol (.new key), value)]

def deltaText (source : StreamSource Mode) (text : String) : ModelEvent Mode :=
  source.event "delta" "text" (.string text)

def usage (codecs : StreamCodecs Mode) (source : StreamSource Mode) (usage : ModelUsage Mode) :
    ModelEvent Mode := source.event "usage" "usage" (codecs.usageExpr usage)

end StreamSource

namespace Decoded

/-- One more chunk of the provider. -/
def onChunk (codecs : StreamCodecs Mode) (source : StreamSource Mode) (value : Json)
    (decoded : Decoded Mode) : Decoded Mode :=
  { decoded with
    providerChunks := decoded.providerChunks + 1
    rawChunks := if source.includeRaw then decoded.rawChunks ++ [codecs.projectJsonToExpr value]
      else decoded.rawChunks }

def onUsage (codecs : StreamCodecs Mode) (source : StreamSource Mode) (decoded : Decoded Mode) :
    Option (ModelUsage Mode) → Decoded Mode
  | none => decoded
  | some usage =>
    { decoded with
      usage := some usage
      events := decoded.events ++ [source.usage codecs usage] }

def onText (source : StreamSource Mode) (decoded : Decoded Mode) : Option String → Decoded Mode
  | none => decoded
  | some text =>
    { decoded with
      combined := decoded.combined ++ text
      events := decoded.events ++ [source.deltaText text] }

def onReason (decoded : Decoded Mode) : Option String → Decoded Mode
  | none => decoded
  | some reason => { decoded with stopReason := .new reason }

end Decoded

/-! ## OpenAI -/

def firstChoice (value : Json) : Option Json :=
  ((value.get "choices").bind Json.asArray).bind List.head?

def openaiDeltaText (value : Json) : Except Error (Option String) :=
  match ((firstChoice value).bind fun choice => choice.get "delta").bind Json.asObject with
  | none => .ok none
  | some delta =>
    match delta.get "content" with
    | some (.string text) =>
      if text ≠ "" then .ok (some text)
      else .error (.eval "openai stream delta content must be string, array, or null")
    | some (.array parts) =>
      let text := String.join (parts.filterMap fun part => (part.get "text").bind Json.asStr)
      .ok (if text ≠ "" then some text else none)
    | some .null | none => .ok none
    | _ => .error (.eval "openai stream delta content must be string, array, or null")

def openaiFinishReason (value : Json) : Option String :=
  ((firstChoice value).bind fun choice => choice.get "finish_reason").bind Json.asStr

def openaiUsage (codecs : StreamCodecs Mode) (value : Json) : Option (ModelUsage Mode) := do
  let usage ← (value.get "usage").bind Json.asObject
  let total := (usage.get "total_tokens").bind codecs.jsonNumberToU64
  return {
    inputTokens := (usage.get "prompt_tokens").bind codecs.jsonNumberToU64
    outputTokens := (usage.get "completion_tokens").bind codecs.jsonNumberToU64
    extra := (total.map fun total => codecs.numberField "total-tokens" total).toList }

def openaiConsumeValue (codecs : StreamCodecs Mode) (source : StreamSource Mode)
    (decoded : Decoded Mode) (value : Json) : Except Error (Decoded Mode) := do
  let decoded := (decoded.onChunk codecs source value).onUsage codecs source
    (openaiUsage codecs value)
  let text ← openaiDeltaText value
  return (decoded.onText source text).onReason (openaiFinishReason value)

def openaiConsumeLine (codecs : StreamCodecs Mode) (source : StreamSource Mode)
    (decoded : Decoded Mode) (line : List UInt8) : Except Error (Decoded Mode) :=
  match Text.ofUtf8 line with
  | none => .error (.eval ("openai stream is not valid utf-8: " ++ codecs.utf8Error line))
  | some text =>
    let line := trim text.toList
    if line = [] ∨ line.head? = some ':' then .ok decoded
    else if ¬"data:".toList <+: line then .ok decoded
    else
      let data := String.ofList (trim (line.drop "data:".length))
      if data = "[DONE]" then .ok decoded
      else
        match codecs.fromStr data with
        | .error err => .error (.eval ("openai stream returned invalid json: " ++ err))
        | .ok value => openaiConsumeValue codecs source decoded value

/-! ## Ollama -/

def nonEmpty (text : Option String) : Option String := text.filter (· ≠ "")

def ollamaChunkText (value : Json) : Except Error (Option String) :=
  match value.asObject with
  | none => .error (.eval "ollama stream chunk must be a json object")
  | some object =>
    match nonEmpty ((((object.get "message").bind Json.asObject).bind (·.get "content")).bind
        Json.asStr) with
    | some content => .ok (some content)
    | none => .ok (nonEmpty ((object.get "response").bind Json.asStr))

def ollamaUsage (codecs : StreamCodecs Mode) (value : Json) : Option (ModelUsage Mode) :=
  let inputTokens := (value.get "prompt_eval_count").bind codecs.jsonNumberToU64
  let outputTokens := (value.get "eval_count").bind codecs.jsonNumberToU64
  match inputTokens, outputTokens with
  | none, none => none
  | some input, some output => some {
      inputTokens, outputTokens
      extra := [codecs.numberField "total-tokens" (input + output)] }
  | _, _ => some { inputTokens, outputTokens }

def ollamaReason (value : Json) : Option String :=
  match (value.get "done_reason").bind Json.asStr with
  | some reason => some reason
  | none => if ((value.get "done").bind Json.asBool).getD false then some "stop" else none

def ollamaConsumeValue (codecs : StreamCodecs Mode) (source : StreamSource Mode)
    (decoded : Decoded Mode) (value : Json) : Except Error (Decoded Mode) := do
  let text ← ollamaChunkText value
  let decoded := (decoded.onChunk codecs source value).onText source text
  return (decoded.onUsage codecs source (ollamaUsage codecs value)).onReason (ollamaReason value)

def ollamaConsumeLine (codecs : StreamCodecs Mode) (source : StreamSource Mode)
    (decoded : Decoded Mode) (line : List UInt8) : Except Error (Decoded Mode) :=
  match Text.ofUtf8 line with
  | none => .error (.eval ("ollama stream is not valid utf-8: " ++ codecs.utf8Error line))
  | some text =>
    let line := trim text.toList
    if line = [] then .ok decoded
    else
      match codecs.fromStr (.ofList line) with
      | .error err => .error (.eval ("ollama stream returned invalid json: " ++ err))
      | .ok value => ollamaConsumeValue codecs source decoded value

/-! ## Lines within their bound -/

def maxStreamLineBytes : Nat := 64 * 1024

def checkLineLen (lineLen : Nat) (provider : String) : Except Error Unit :=
  if maxStreamLineBytes < lineLen then
    .error (.eval (provider ++ " stream line exceeded size limit of " ++
      toString maxStreamLineBytes ++ " bytes"))
  else .ok ()

/-- Checks the line that goes on with the bytes, and every line that begins in them. -/
def checkLineBytes (provider : String) (lineLen : Nat) : List UInt8 → Except Error Unit
  | [] => .ok ()
  | byte :: bytes =>
    if byte = 10 then checkLineBytes provider 0 bytes
    else do
      checkLineLen (lineLen + 1) provider
      checkLineBytes provider (lineLen + 1) bytes

def checkLineAppend (bufferedLen : Nat) (bytes : List UInt8) (provider : String) :
    Except Error Unit := do
  checkLineLen bufferedLen provider
  checkLineBytes provider bufferedLen bytes

section
variable (decoder : LineDecoder Buffer)

def pushBoundedLines (lines : Buffer) (bytes : List UInt8) (provider : String) :
    Except Error (List (List UInt8) × Buffer) := do
  checkLineAppend (decoder.buffered lines).length bytes provider
  return decoder.push lines bytes

def flushBoundedLine (lines : Buffer) (provider : String) : Except Error (Option (List UInt8)) := do
  checkLineLen (decoder.buffered lines).length provider
  return decoder.flush lines

/-! ## Decoders -/

/-- How a decoder takes a line. -/
abbrev Consume (Mode : Type) := StreamSource Mode → Decoded Mode → List UInt8 →
  Except Error (Decoded Mode)

namespace StreamDecoder

def feed (provider : String) (consumeLine : Consume Mode) (self : StreamDecoder Mode Buffer)
    (bytes : List UInt8) : Except Error (StreamDecoder Mode Buffer) := do
  let (ended, lines) ← pushBoundedLines decoder self.lines bytes provider
  let decoded ← ended.foldlM (consumeLine self.source) self.decoded
  return { self with lines, decoded }

/-- The response, and the events that the sink has got. -/
def finish (codecs : StreamCodecs Mode) (provider : String) (consumeLine : Consume Mode)
    (self : StreamDecoder Mode Buffer) :
    Except Error (ModelResponse Mode × List (ModelEvent Mode)) := do
  let line ← flushBoundedLine decoder self.lines provider
  let decoded ← line.toList.foldlM (consumeLine self.source) self.decoded
  let response := ModelResponse.new self.source.runner self.source.model
    [codecs.textPart decoded.combined] decoded.stopReason
  let extra := if self.source.includeRaw then
    [((.symbol (.new "raw-provider-response") : Expr Mode), .list decoded.rawChunks)] else []
  return ({ response with usage := decoded.usage, extra }, decoded.events)

/-- Feeds the chunks to a new decoder and finishes it. -/
def decode (codecs : StreamCodecs Mode) (provider : String) (consumeLine : Consume Mode)
    (source : StreamSource Mode) (chunks : List (List UInt8)) :
    Except Error (ModelResponse Mode × List (ModelEvent Mode)) := do
  let self ← chunks.foldlM (feed decoder provider consumeLine) ⟨source, decoder.new, {}⟩
  self.finish decoder codecs provider consumeLine

end StreamDecoder

def openaiDecode (codecs : StreamCodecs Mode) (runner : Symbol) (model : String)
    (includeRaw : Bool) (chunks : List (List UInt8)) :
    Except Error (ModelResponse Mode × List (ModelEvent Mode)) :=
  StreamDecoder.decode decoder codecs "openai" (openaiConsumeLine codecs)
    ⟨runner, model, .string "openai-sse", includeRaw⟩ chunks

def ollamaDecode (codecs : StreamCodecs Mode) (runner : Symbol) (model : String)
    (includeRaw : Bool) (chunks : List (List UInt8)) :
    Except Error (ModelResponse Mode × List (ModelEvent Mode)) :=
  StreamDecoder.decode decoder codecs "ollama" (ollamaConsumeLine codecs)
    ⟨runner, model, .string "ollama-ndjson", includeRaw⟩ chunks

end

/-! ## Chunks -/

/-- The buffer of a decoder that has been given the input. -/
inductive LineDecoder.Holds (decoder : LineDecoder Buffer) : List UInt8 → Buffer → Prop
  | new : Holds decoder [] decoder.new
  | push (h : Holds decoder input lines) (bytes : List UInt8) :
    Holds decoder (input ++ bytes) (decoder.push lines bytes).2

/-- The decoder splits all its input at line ends, whatever it does to a line that has ended or to
the last one: it has returned the lines that have ended and keeps the line that has begun. -/
structure LineDecoder.Splits (decoder : LineDecoder Buffer)
    (ended last : List UInt8 → List UInt8) : Prop where
  push : ∀ input lines bytes, decoder.Holds input lines →
    (Lines.split 10 [] (input ++ bytes)).1.map ended =
      (Lines.split 10 [] input).1.map ended ++ (decoder.push lines bytes).1
  buffered : ∀ input lines, decoder.Holds input lines →
    (decoder.buffered lines).length = (Lines.split 10 [] input).2.length
  flush : ∀ input lines, decoder.Holds input lines →
    decoder.flush lines = if (Lines.split 10 [] input).2 = [] then none
      else some (last (Lines.split 10 [] input).2)

theorem checkLineLen_ok_iff {lineLen : Nat} {provider : String} :
    checkLineLen lineLen provider = .ok () ↔ lineLen ≤ maxStreamLineBytes := by
  rw [checkLineLen]
  split
  · rename_i h
    exact ⟨nofun, fun hle => absurd h (Nat.not_lt_of_le hle)⟩
  · rename_i h
    exact ⟨fun _ => Nat.le_of_not_lt h, fun _ => rfl⟩

theorem checkLineBytes_ok_iff {provider : String} {begun bytes : List UInt8}
    (h : begun.length ≤ maxStreamLineBytes) : checkLineBytes provider begun.length bytes = .ok () ↔
      Lines.Bounded maxStreamLineBytes (Lines.split 10 begun bytes) := by
  induction bytes generalizing begun with
  | nil => exact ⟨fun _ => ⟨List.forall_mem_nil _, h⟩, fun _ => rfl⟩
  | cons byte bytes ih =>
    rw [checkLineBytes]
    split
    · rename_i hbyte
      subst hbyte
      rw [Lines.bounded_cons_sep, ← ih (Nat.zero_le _)]
      exact ⟨fun hrest => ⟨h, hrest⟩, fun hrest => hrest.2⟩
    · rename_i hbyte
      have hlen : (begun ++ [byte]).length = begun.length + 1 := List.length_append
      rw [Lines.bounded_cons_of_ne hbyte, Except.bind_eq_ok_iff]
      constructor
      · rintro ⟨_, hcheck, hrest⟩
        have hle := hlen ▸ checkLineLen_ok_iff.mp hcheck
        exact (ih hle).mp (hlen ▸ hrest)
      · intro hbounded
        have hle := Lines.begun_le_of_bounded hbounded
        exact ⟨(), checkLineLen_ok_iff.mpr (hlen ▸ hle), hlen ▸ (ih hle).mpr hbounded⟩

/-- The bytes are let through when no line becomes too long with them. -/
theorem checkLineAppend_ok_iff {provider : String} {begun bytes : List UInt8} :
    checkLineAppend begun.length bytes provider = .ok () ↔
      Lines.Bounded maxStreamLineBytes (Lines.split 10 begun bytes) := by
  rw [checkLineAppend, Except.bind_eq_ok_iff]
  constructor
  · rintro ⟨_, hlen, hbytes⟩
    exact (checkLineBytes_ok_iff (checkLineLen_ok_iff.mp hlen)).mp hbytes
  · intro h
    have hlen := Lines.begun_le_of_bounded h
    exact ⟨(), checkLineLen_ok_iff.mpr hlen, (checkLineBytes_ok_iff hlen).mpr h⟩

section
variable {decoder : LineDecoder Buffer} {ended last : List UInt8 → List UInt8}
  {consumeLine : Consume Mode} {provider : String} {source : StreamSource Mode}

theorem push_lines (hd : decoder.Splits ended last) (h : decoder.Holds input lines)
    (bytes : List UInt8) : (decoder.push lines bytes).1 =
      (Lines.split 10 (Lines.split 10 [] input).2 bytes).1.map ended := by
  have hpush := hd.push input lines bytes h
  rw [Lines.split_append, List.map_append] at hpush
  exact (List.append_cancel_left hpush).symm

/-- A chunk is fed when no line becomes too long with it and the lines that end in it are taken. -/
theorem feed_ok_iff (hd : decoder.Splits ended last) (h : decoder.Holds input lines)
    {decoded : Decoded Mode} {bytes : List UInt8} {self : StreamDecoder Mode Buffer} :
    StreamDecoder.feed decoder provider consumeLine ⟨source, lines, decoded⟩ bytes = .ok self ↔
      Lines.Bounded maxStreamLineBytes (Lines.split 10 (Lines.split 10 [] input).2 bytes) ∧
      ∃ taken, ((Lines.split 10 (Lines.split 10 [] input).2 bytes).1.map ended).foldlM
          (consumeLine source) decoded = .ok taken ∧
        self = ⟨source, (decoder.push lines bytes).2, taken⟩ := by
  have hcheck : checkLineAppend (decoder.buffered lines).length bytes provider = .ok () ↔
      Lines.Bounded maxStreamLineBytes (Lines.split 10 (Lines.split 10 [] input).2 bytes) := by
    rw [hd.buffered input lines h, checkLineAppend_ok_iff]
  rw [← push_lines hd h, ← hcheck]
  constructor
  · intro hfeed
    obtain ⟨pushed, hpushed, hrest⟩ := Except.bind_eq_ok_iff.mp hfeed
    obtain ⟨_, hok, hpushed⟩ := Except.bind_eq_ok_iff.mp hpushed
    cases hpushed
    obtain ⟨taken, htaken, hself⟩ := Except.bind_eq_ok_iff.mp hrest
    exact ⟨hok, taken, htaken, (Except.ok.inj hself).symm⟩
  · rintro ⟨hok, taken, htaken, rfl⟩
    rw [StreamDecoder.feed, pushBoundedLines, hok]
    simp only [Except.ok_bind]
    show (do
      let decoded ← (decoder.push lines bytes).1.foldlM (consumeLine source) decoded
      return (⟨source, (decoder.push lines bytes).2, decoded⟩ : StreamDecoder Mode Buffer)) = _
    rw [htaken]
    rfl

/-- The buffer after the chunks. -/
def pushAll (decoder : LineDecoder Buffer) (chunks : List (List UInt8)) : Buffer :=
  chunks.foldl (fun lines bytes => (decoder.push lines bytes).2) decoder.new

theorem holds_pushAll (decoder : LineDecoder Buffer) (chunks : List (List UInt8)) :
    decoder.Holds chunks.flatten (pushAll decoder chunks) := by
  induction chunks using List.reverseRecOn with
  | nil => exact .new
  | append_singleton chunks bytes ih =>
    rw [List.flatten_append, List.flatten_singleton, pushAll, List.foldl_append]
    exact .push ih bytes

/-- Chunks are fed when no line of their bytes is too long and the lines that have ended are
taken. -/
theorem feedAll_ok_iff (hd : decoder.Splits ended last) {chunks : List (List UInt8)}
    {self : StreamDecoder Mode Buffer} :
    chunks.foldlM (StreamDecoder.feed decoder provider consumeLine) ⟨source, decoder.new, {}⟩ =
        .ok self ↔
      Lines.Bounded maxStreamLineBytes (Lines.split 10 [] chunks.flatten) ∧
      ∃ taken, ((Lines.split 10 [] chunks.flatten).1.map ended).foldlM (consumeLine source) {} =
          .ok taken ∧
        self = ⟨source, pushAll decoder chunks, taken⟩ := by
  induction chunks using List.reverseRecOn generalizing self with
  | nil =>
    constructor
    · intro h
      cases h
      exact ⟨⟨List.forall_mem_nil _, Nat.zero_le _⟩, {}, rfl, rfl⟩
    · rintro ⟨-, taken, htaken, rfl⟩
      cases htaken
      rfl
  | append_singleton chunks bytes ih =>
    have hholds := holds_pushAll decoder chunks
    rw [List.foldlM_append, Except.bind_eq_ok_iff, List.flatten_append, List.flatten_singleton,
      Lines.bounded_append, Lines.split_append, List.map_append, List.foldlM_append]
    have hlast : pushAll decoder (chunks ++ [bytes]) =
        (decoder.push (pushAll decoder chunks) bytes).2 := by
      rw [pushAll, List.foldl_append]
      rfl
    rw [hlast]
    have hone (before : StreamDecoder Mode Buffer) :
        [bytes].foldlM (StreamDecoder.feed decoder provider consumeLine) before =
          StreamDecoder.feed decoder provider consumeLine before bytes := by
      rw [List.foldlM_cons]
      exact bind_pure _
    constructor
    · rintro ⟨before, hbefore, hfeed⟩
      obtain ⟨hbounded, taken, htaken, rfl⟩ := ih.mp hbefore
      rw [hone] at hfeed
      obtain ⟨hmore, all, hlines, rfl⟩ := (feed_ok_iff hd hholds).mp hfeed
      exact ⟨⟨hbounded, hmore⟩, all, Except.bind_eq_ok_iff.mpr ⟨taken, htaken, hlines⟩, rfl⟩
    · rintro ⟨⟨hbounded, hmore⟩, all, hlines, rfl⟩
      obtain ⟨taken, htaken, hlines⟩ := Except.bind_eq_ok_iff.mp hlines
      refine ⟨_, ih.mpr ⟨hbounded, taken, htaken, rfl⟩, ?_⟩
      rw [hone]
      exact (feed_ok_iff hd hholds).mpr ⟨hmore, all, hlines, rfl⟩

/-- All lines of a stream, the last one also if the stream ends within it. -/
def allLines (ended last : List UInt8 → List UInt8) (input : List UInt8) : List (List UInt8) :=
  (Lines.split 10 [] input).1.map ended ++
    if (Lines.split 10 [] input).2 = [] then [] else [last (Lines.split 10 [] input).2]

/-- What a decoder returns that has taken all lines. -/
def response (codecs : StreamCodecs Mode) (source : StreamSource Mode) (decoded : Decoded Mode) :
    ModelResponse Mode × List (ModelEvent Mode) :=
  ({ ModelResponse.new source.runner source.model [codecs.textPart decoded.combined]
        decoded.stopReason with
      usage := decoded.usage
      extra := if source.includeRaw then
        [(.symbol (.new "raw-provider-response"), .list decoded.rawChunks)] else [] },
    decoded.events)

/-- A stream is decoded when none of its lines is too long and all of them are taken. -/
theorem decode_ok_iff (hd : decoder.Splits ended last) {codecs : StreamCodecs Mode}
    {chunks : List (List UInt8)} {out : ModelResponse Mode × List (ModelEvent Mode)} :
    StreamDecoder.decode decoder codecs provider consumeLine source chunks = .ok out ↔
      Lines.Bounded maxStreamLineBytes (Lines.split 10 [] chunks.flatten) ∧
      ∃ decoded, (allLines ended last chunks.flatten).foldlM (consumeLine source) {} = .ok decoded ∧
        out = response codecs source decoded := by
  have hholds := holds_pushAll decoder chunks
  have hlast : (decoder.flush (pushAll decoder chunks)).toList =
      if (Lines.split 10 [] chunks.flatten).2 = [] then []
      else [last (Lines.split 10 [] chunks.flatten).2] := by
    rw [hd.flush _ _ hholds]
    split <;> rfl
  rw [StreamDecoder.decode, Except.bind_eq_ok_iff, allLines, List.foldlM_append]
  constructor
  · rintro ⟨self, hself, hfinish⟩
    obtain ⟨hbounded, taken, htaken, rfl⟩ := (feedAll_ok_iff hd).mp hself
    obtain ⟨line, hline, hrest⟩ := Except.bind_eq_ok_iff.mp hfinish
    obtain ⟨_, -, hline⟩ := Except.bind_eq_ok_iff.mp hline
    cases hline
    obtain ⟨decoded, hdecoded, hout⟩ := Except.bind_eq_ok_iff.mp hrest
    cases hout
    rw [hlast] at hdecoded
    exact ⟨hbounded, decoded, Except.bind_eq_ok_iff.mpr ⟨taken, htaken, hdecoded⟩, rfl⟩
  · rintro ⟨hbounded, decoded, hdecoded, rfl⟩
    obtain ⟨taken, htaken, hdecoded⟩ := Except.bind_eq_ok_iff.mp hdecoded
    refine ⟨_, (feedAll_ok_iff hd).mpr ⟨hbounded, taken, htaken, rfl⟩, ?_⟩
    have hlen : checkLineLen (decoder.buffered (pushAll decoder chunks)).length provider = .ok () := by
      rw [checkLineLen_ok_iff, hd.buffered _ _ hholds]
      exact hbounded.2
    rw [← hlast] at hdecoded
    rw [StreamDecoder.finish, flushBoundedLine, hlen]
    show (do
      let decoded ← (decoder.flush (pushAll decoder chunks)).toList.foldlM (consumeLine source) taken
      return response codecs source decoded) = _
    rw [hdecoded]
    rfl

/-- Cutting a stream into chunks changes neither whether it is decoded nor what is returned. -/
theorem decode_chunks (hd : decoder.Splits ended last) (codecs : StreamCodecs Mode)
    (chunks : List (List UInt8)) :
    (StreamDecoder.decode decoder codecs provider consumeLine source chunks).toOption =
      (StreamDecoder.decode decoder codecs provider consumeLine source [chunks.flatten]).toOption := by
  apply Option.ext
  intro out
  rw [Except.toOption_eq_some_iff, Except.toOption_eq_some_iff, decode_ok_iff hd, decode_ok_iff hd,
    List.flatten_singleton]

end

/-! ## Texts and usages -/

/-- The text of a delta event. -/
def ModelEvent.text? (event : ModelEvent Mode) : Option String :=
  match event.extra with
  | [(_, .string text)] => if event.event = .new "delta" then some text else none
  | _ => none

theorem ModelEvent.text?_eq_none {event : ModelEvent Mode} (h : event.event ≠ .new "delta") :
    event.text? = none := by
  rw [text?]
  split
  · exact if_neg h
  · rfl

/-- The usage of a usage event, as an expression. -/
def ModelEvent.usage? (event : ModelEvent Mode) : Option (Expr Mode) :=
  match event.extra with
  | [(_, usage)] => if event.event = .new "usage" then some usage else none
  | _ => none

/-- The text is that of the delta events, the usage that of the last usage event. -/
def Decoded.Tells (codecs : StreamCodecs Mode) (decoded : Decoded Mode) : Prop :=
  decoded.combined = String.join (decoded.events.filterMap ModelEvent.text?) ∧
    decoded.usage.map codecs.usageExpr = (decoded.events.filterMap ModelEvent.usage?).getLast?

namespace Decoded

variable {codecs : StreamCodecs Mode} {source : StreamSource Mode} {decoded : Decoded Mode}

theorem Tells.new : Tells codecs ({} : Decoded Mode) := ⟨rfl, rfl⟩

theorem Tells.onChunk (h : decoded.Tells codecs) (value : Json) :
    (decoded.onChunk codecs source value).Tells codecs := h

theorem Tells.onReason (h : decoded.Tells codecs) (reason : Option String) :
    (decoded.onReason reason).Tells codecs := by
  cases reason with
  | none => exact h
  | some reason => exact h

theorem Tells.onText (h : decoded.Tells codecs) (text : Option String) :
    (decoded.onText source text).Tells codecs := by
  cases text with
  | none => exact h
  | some text =>
    constructor
    · have htext : (source.deltaText text).text? = some text := rfl
      rw [Decoded.onText, List.filterMap_append, String.join_append, h.1]
      simp [htext]
    · have husage : (source.deltaText text).usage? = none := rfl
      rw [Decoded.onText, List.filterMap_append]
      simp [husage, h.2]

theorem Tells.onUsage (h : decoded.Tells codecs) (usage : Option (ModelUsage Mode)) :
    (decoded.onUsage codecs source usage).Tells codecs := by
  cases usage with
  | none => exact h
  | some usage =>
    constructor
    · have htext : (source.usage codecs usage).text? = none :=
        ModelEvent.text?_eq_none (by simp [StreamSource.usage, StreamSource.event, Symbol.new])
      rw [Decoded.onUsage, List.filterMap_append, String.join_append, h.1]
      simp [htext]
    · have husage : (source.usage codecs usage).usage? = some (codecs.usageExpr usage) := rfl
      rw [Decoded.onUsage, List.filterMap_append]
      simp [husage]

theorem Tells.openaiConsumeValue (h : decoded.Tells codecs) {value : Json}
    (hv : openaiConsumeValue codecs source decoded value = .ok next) : next.Tells codecs := by
  obtain ⟨text, -, hnext⟩ := Except.bind_eq_ok_iff.mp hv
  cases hnext
  exact (((h.onChunk value).onUsage _).onText text).onReason _

theorem Tells.openaiConsumeLine (h : decoded.Tells codecs) {line : List UInt8}
    (hl : openaiConsumeLine codecs source decoded line = .ok next) : next.Tells codecs := by
  rw [AgentRunnerHttp.openaiConsumeLine] at hl
  split at hl
  · cases hl
  · dsimp only at hl
    split at hl
    · cases hl
      exact h
    · split at hl
      · cases hl
        exact h
      · split at hl
        · cases hl
          exact h
        · split at hl
          · cases hl
          · exact h.openaiConsumeValue hl

theorem Tells.ollamaConsumeValue (h : decoded.Tells codecs) {value : Json}
    (hv : ollamaConsumeValue codecs source decoded value = .ok next) : next.Tells codecs := by
  obtain ⟨text, -, hnext⟩ := Except.bind_eq_ok_iff.mp hv
  cases hnext
  exact (((h.onChunk value).onText text).onUsage _).onReason _

theorem Tells.ollamaConsumeLine (h : decoded.Tells codecs) {line : List UInt8}
    (hl : ollamaConsumeLine codecs source decoded line = .ok next) : next.Tells codecs := by
  rw [AgentRunnerHttp.ollamaConsumeLine] at hl
  split at hl
  · cases hl
  · dsimp only at hl
    split at hl
    · cases hl
      exact h
    · split at hl
      · cases hl
      · exact h.ollamaConsumeValue hl

end Decoded

section
variable {decoder : LineDecoder Buffer} {ended last : List UInt8 → List UInt8}
  {codecs : StreamCodecs Mode}

/-- If every line keeps it, the response tells what the events tell. -/
theorem decode_tells (hd : decoder.Splits ended last) {consumeLine : Consume Mode}
    {provider : String} {source : StreamSource Mode} {chunks : List (List UInt8)}
    {out : ModelResponse Mode × List (ModelEvent Mode)}
    (hline : ∀ decoded line next, decoded.Tells codecs →
      consumeLine source decoded line = .ok next → next.Tells codecs)
    (h : StreamDecoder.decode decoder codecs provider consumeLine source chunks = .ok out) :
    out.1.content = [codecs.textPart (String.join (out.2.filterMap ModelEvent.text?))] ∧
      out.1.usage.map codecs.usageExpr = (out.2.filterMap ModelEvent.usage?).getLast? := by
  obtain ⟨-, decoded, hdecoded, hout⟩ := (decode_ok_iff hd).mp h
  cases hout
  have htells : decoded.Tells codecs :=
    Run.keeps (fun line _ before next hbefore => hline before line next hbefore) .new hdecoded
  refine ⟨?_, htells.2⟩
  show [codecs.textPart decoded.combined] = _
  rw [htells.1]
  rfl

/-- A stream is decoded to the same however it is cut, and the response tells what the events
tell. -/
def Exact (codecs : StreamCodecs Mode) (decode : List (List UInt8) →
    Except Error (ModelResponse Mode × List (ModelEvent Mode))) : Prop :=
  (∀ chunks, (decode chunks).toOption = (decode [chunks.flatten]).toOption) ∧
    ∀ chunks response events, decode chunks = .ok (response, events) →
      response.content = [codecs.textPart (String.join (events.filterMap ModelEvent.text?))] ∧
      response.usage.map codecs.usageExpr = (events.filterMap ModelEvent.usage?).getLast?

theorem stream_decode_exact (hd : decoder.Splits ended last) (runner : Symbol) (model : String)
    (includeRaw : Bool) : Exact codecs (openaiDecode decoder codecs runner model includeRaw) ∧
      Exact codecs (ollamaDecode decoder codecs runner model includeRaw) := by
  constructor
  · refine ⟨decode_chunks hd codecs, fun chunks response events h => ?_⟩
    exact decode_tells hd (fun _ _ _ htells => htells.openaiConsumeLine) h
  · refine ⟨decode_chunks hd codecs, fun chunks response events h => ?_⟩
    exact decode_tells hd (fun _ _ _ htells => htells.ollamaConsumeLine) h

end

namespace StreamSample

/-- A decoder that keeps the line that has begun. -/
def decoder : LineDecoder (List UInt8) where
  new := []
  push begun bytes := Lines.split 10 begun bytes
  flush begun := if begun = [] then none else some begun
  buffered begun := begun

theorem begun_of_holds (h : decoder.Holds input lines) : lines = (Lines.split 10 [] input).2 := by
  induction h with
  | new => rfl
  | push _ bytes ih =>
    rw [Lines.split_append, ← ih]
    rfl

theorem splits : decoder.Splits id id where
  push input lines bytes h := by
    rw [Lines.split_append, List.map_id, List.map_id, ← begun_of_holds h]
    rfl
  buffered input lines h := by
    rw [begun_of_holds h]
    rfl
  flush input lines h := by
    rw [← begun_of_holds h]
    rfl

def codecs : StreamCodecs Unit where
  fromStr text := if text = "\x7b\"response\":\"pong\"\x7d" then
      .ok (.object [("response", .string "pong")])
    else .error "expected value"
  utf8Error _ := "invalid utf-8 sequence"
  projectJsonToExpr _ := .nil
  jsonNumberToU64 _ := none
  numberField name value := (.string name, .string (toString value.toNat))
  textPart text := .string text
  usageExpr _ := .nil

end StreamSample

theorem stream_decode_exact_lines :
    Exact StreamSample.codecs
        (openaiDecode StreamSample.decoder StreamSample.codecs (.new "openai") "gpt" false) ∧
      Exact StreamSample.codecs
        (ollamaDecode StreamSample.decoder StreamSample.codecs (.new "openai") "gpt" false) :=
  stream_decode_exact StreamSample.splits _ _ _

end SimAgentNet.AgentRunnerHttp
