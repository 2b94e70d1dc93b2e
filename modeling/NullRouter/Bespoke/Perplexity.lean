import Mathlib.Data.List.AList
import Mathlib.Data.List.MinMax
import NullRouter.Translate.Schema

/-!
# Perplexity's requests

`crates/execute/src/bespoke/perplexity_web.rs`, and of `bespoke/mod.rs` the envelope and
`remember_thread`: the whole conversation as one query, or the last message alone where the cache
knows the thread that the conversation is in. Times are nanoseconds.
-/

namespace NullRouter.Bespoke.Perplexity

open NullRouter.Base NullRouter.Translate

/-! ## Models -/

/-- `MODELS`, `perplexity_web.rs:55`: a model's mode and preference. -/
def models : List (String × String × String) :=
  [("pplx-auto", "concise", "pplx_pro"), ("pplx-sonar", "copilot", "experimental"),
    ("pplx-gpt", "copilot", "gpt54"), ("pplx-gemini", "copilot", "gemini31pro_high"),
    ("pplx-sonnet", "copilot", "claude46sonnet"), ("pplx-opus", "copilot", "claude46opus"),
    ("pplx-nemotron", "copilot", "nv_nemotron_3_super")]

/-- `THINKING`, `perplexity_web.rs:108`. -/
def thinkingModels : List (String × String) :=
  [("pplx-gpt", "gpt54_thinking"), ("pplx-sonnet", "claude46sonnetthinking"),
    ("pplx-opus", "claude46opusthinking")]

/-- `resolve_model`, `perplexity_web.rs:118`. -/
def resolveModel (model : String) (thinking : Bool) : String × String :=
  match (if thinking then thinkingModels.lookup model else none) with
  | some preference => ("copilot", preference)
  | none => (models.lookup model).getD ("copilot", model)

/-- `wants_thinking`, `perplexity_web.rs:137`. -/
def wantsThinking (body : Json) : Bool :=
  (body.get "thinking").bind Json.asBool = some true ||
    (body.strField "reasoning_effort").any (· ≠ "none")

/-! ## Conversations -/

/-- `Conversation`, `perplexity_web.rs:148`. -/
structure Conversation where
  system : String := ""
  history : List (String × String) := []
  current : String := ""
  deriving DecidableEq

/-- `message_text`, `perplexity_web.rs:199`. -/
def messageText (content : Option Json) : String :=
  match content with
  | some (.str text) => text
  | some (.arr parts) => " ".intercalate (partTexts parts)
  | _ => ""

/-- A message in its turn, `perplexity_web.rs:165–185`. -/
def addMessage (conversation : Conversation) (message : Json) : Conversation :=
  let given := (message.strField "role").getD "user"
  let role := if given = "developer" then "system" else given
  let text := messageText (message.get "content")
  if trim text = "" then conversation
  else if role = "system" then
    { conversation with system := conversation.system ++ text ++ "\n" }
  else if role = "user" ∨ role = "assistant" then
    { conversation with history := conversation.history ++ [(role, text)] }
  else conversation

/-- The last user message is the question, `perplexity_web.rs:187–194`. -/
def takeCurrent (conversation : Conversation) : Conversation :=
  match conversation.history.getLast? with
  | some (role, text) =>
    if role = "user" then
      { conversation with history := conversation.history.dropLast, current := text }
    else conversation
  | none => conversation

/-- `parse_messages`, `perplexity_web.rs:162`. -/
def parseMessages (messages : List Json) : Conversation :=
  takeCurrent (messages.foldl addMessage {})

/-- The messages of a body, parsed. -/
def conversationOf (body : Json) : Conversation :=
  parseMessages ((arrayField body "messages").getD [])

/-! ## Queries -/

/-- `MAX_QUERY`, `perplexity_web.rs:40`. -/
def maxQuery : Nat := 96000

/-- `API_VERSION`, `perplexity_web.rs:27`. -/
def apiVersion : String := "2.18"

/-- The first line of a text, `str::lines`. -/
def firstLine (text : String) : List Char :=
  let line := text.toList.takeWhile (· ≠ '\n')
  if '\n' ∈ text.toList ∧ line.getLast? = some '\r' then line.dropLast else line

/-- The line about a tool, `perplexity_web.rs:226–243`. -/
def toolLine (tool : Json) : String :=
  let function := (tool.get "function").getD tool
  "- " ++ (function.strField "name").getD "unnamed" ++ ": " ++
    String.ofList ((firstLine (textOrEmpty function "description")).take 200)

/-- `tools_hint`, `perplexity_web.rs:217`. -/
def toolsHint (tools : Option Json) : String :=
  match (tools.bind Json.asArray).filter (!·.isEmpty) with
  | none => ""
  | some tools =>
    "Available tools (reference only, cannot invoke):\n" ++ "\n".intercalate (tools.map toolLine)

/-- The instructions of a new thread, `perplexity_web.rs:264–274`. -/
def instructions (conversation : Conversation) (tools : Option Json) : List String :=
  [trim conversation.system, toolsHint tools].filter (· ≠ "") ++
    ["You have built-in web search. Answer questions directly using search results."]

/-- The document of a new thread, `perplexity_web.rs:276–292`. -/
def queryDocument (conversation : Conversation) (tools : Option Json) : Json :=
  Json.object ([("instructions", .arr ((instructions conversation tools).map .str))]
    ++ (if conversation.history = [] then []
      else [("history", .arr (conversation.history.map fun turn ↦
        Json.object [("role", .str turn.1), ("content", .str turn.2)]))])
    ++ (if conversation.current ≠ "" ∨ conversation.history = [] then
      [("query", .str conversation.current)] else []))

/-- `build_query`, `perplexity_web.rs:256`; of a long document the end is sent. -/
def buildQuery (serde : SerdeJson) (conversation : Conversation) (followUp : Option String)
    (tools : Option Json) : String :=
  if followUp.isSome then conversation.current
  else
    let encoded := serde.toText (queryDocument conversation tools)
    if encoded.utf8ByteSize ≤ maxQuery then encoded
    else String.ofList (encoded.toList.drop (encoded.length - maxQuery))

/-- `payload`, `perplexity_web.rs:308`, with the two ids of the front end. -/
def payload (query mode preference : String) (followUp : Option String) (ids : String × String) :
    Json :=
  Json.object [("query_str", .str query), ("params", Json.object [("query_str", .str query),
    ("search_focus", .str "internet"), ("mode", .str mode), ("model_preference", .str preference),
    ("sources", .arr [.str "web"]), ("attachments", .arr []), ("frontend_uuid", .str ids.1),
    ("frontend_context_uuid", .str ids.2), ("version", .str apiVersion),
    ("language", .str "en-US"), ("timezone", .str "UTC"), ("search_recency_filter", .null),
    ("is_incognito", .bool true), ("use_schematized_api", .bool true),
    ("last_backend_uuid", followUp.elim .null .str)])]

/-! ## The cache of threads -/

/-- `char::encode_utf16`. -/
def utf16 (c : Char) : List UInt16 :=
  if c.toNat < 0x10000 then [UInt16.ofNat c.toNat]
  else
    let n := c.toNat - 0x10000
    [UInt16.ofNat (0xD800 + n / 0x400), UInt16.ofNat (0xDC00 + n % 0x400)]

/-- One unit of FNV-1a, `perplexity_web.rs:377`. -/
def fnvStep (hash : UInt32) (unit : UInt16) : UInt32 := (hash ^^^ unit.toUInt32) * 0x01000193

/-- The text that is hashed of a history, `perplexity_web.rs:368–372`. -/
def joined (history : List (String × String)) : String :=
  "\n".intercalate (history.map fun turn ↦ turn.1 ++ ":" ++ turn.2)

/-- `session_key`, `perplexity_web.rs:367`. -/
def sessionKey (history : List (String × String)) : String :=
  let hash := ((joined history).toList.flatMap utf16).foldl fnvStep 0x811c9dc5
  let digits := Nat.toDigits 16 hash.toNat
  String.ofList (List.replicate (8 - digits.length) '0' ++ digits)

/-- `SESSION_MAX_AGE`, `perplexity_web.rs:43`. -/
def sessionMaxAge : Nat := 3600 * 1000000000

/-- `SESSION_MAX_ENTRIES`, `perplexity_web.rs:46`. -/
def sessionMaxEntries : Nat := 200

/-- `Session`, `perplexity_web.rs:384`. -/
structure Session where
  backendUuid : String
  stored : Nat
  deriving DecidableEq

/-- The map of `cache`, `perplexity_web.rs:389`: one for all accounts. -/
abbrev Cache := AList fun _ : String ↦ Session

/-- `session_lookup`, `perplexity_web.rs:395`. -/
def sessionLookup (cache : Cache) (now : Nat) (history : List (String × String)) :
    Option String × Cache :=
  if history = [] then (none, cache)
  else
    match cache.lookup (sessionKey history) with
    | none => (none, cache)
    | some entry =>
      if sessionMaxAge < now - entry.stored then (none, cache.erase (sessionKey history))
      else (some entry.backendUuid, cache)

/-- Past the bound the oldest entry goes, `perplexity_web.rs:441–448`; of entries as old as each
other the map's order decides. -/
def evictOldest (cache : Cache) : Cache :=
  if sessionMaxEntries < cache.entries.length then
    match cache.entries.argmin (·.2.stored) with
    | some oldest => cache.erase oldest.1
    | none => cache
  else cache

/-- `session_store`, `perplexity_web.rs:416`. -/
def sessionStore (cache : Cache) (now : Nat) (history : List (String × String))
    (current answer backendUuid : String) : Cache :=
  if backendUuid = "" then cache
  else
    evictOldest (cache.insert
      (sessionKey (history ++ [("user", current), ("assistant", answer)])) ⟨backendUuid, now⟩)

/-! ## Requests and answers -/

/-- `envelope` for perplexity, `bespoke/mod.rs:89–109`: what is sent, and the cache after it. -/
def envelope (serde : SerdeJson) (cache : Cache) (now : Nat) (body : Json)
    (ids : String × String) : Json × Cache :=
  let model := resolveModel (textOrEmpty body "model") (wantsThinking body)
  let conversation := conversationOf body
  let found := sessionLookup cache now conversation.history
  let query := buildQuery serde conversation found.1 (body.get "tools")
  (payload query model.1 model.2 found.1 ids, found.2)

/-- `remember_thread` for perplexity, `bespoke/mod.rs:181`. -/
def rememberThread (cache : Cache) (now : Nat) (requestBody : Json)
    (backendUuid answer : String) : Cache :=
  if backendUuid = "" then cache
  else
    let conversation := conversationOf requestBody
    sessionStore cache now conversation.history conversation.current answer backendUuid

end NullRouter.Bespoke.Perplexity
