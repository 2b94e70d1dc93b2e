import NullRouter.Base.Scan
import NullRouter.Base.Text

/-!
# The scrubber of log lines

What a service takes out of a log line before the line is shown to anyone,
`crates/logship/src/scrub.rs`, and how the fields of an event come to a line, `lib.rs:240`. A pass
that looks from a cursor for the next place that it knows is a scan under a rule.
-/

namespace NullRouter.Logship

open NullRouter.Base

/-- `REDACTED`, `scrub.rs:24`. -/
def redacted : List Char := "[redacted]".toList

/-- `MIN_SECRET`, `scrub.rs:30`. -/
def minSecret : Nat := 8

/-- `CREDENTIAL_NAMES`, `scrub.rs:35`. -/
def credentialNames : List String :=
  ["authorization", "proxy-authorization", "cookie", "set-cookie", "x-api-key", "x-goog-api-key",
    "api-key", "api_key", "apikey", "access_token", "accesstoken", "refresh_token", "refreshtoken",
    "id_token", "idtoken", "client_secret", "clientsecret", "password", "secret", "session_token",
    "sessiontoken", "x-cursor-checksum", "x-client-key"]

/-- Whether a text starts with another, which is of small letters, in any casing. -/
def startsWith (name line : List Char) : Bool := (line.take name.length).map Char.toLower = name

/-! ## Bearer tokens -/

/-- `is_token_char`, `scrub.rs:238`. -/
def isTokenChar (c : Char) : Bool := c.isAlphanum || c ∈ ['-', '_', '.', '~', '+', '/', '=']

/-- What a token stands after. -/
def marker : List Char := "bearer ".toList

/-- Whether the cursor is set past the end of the line, or into the bytes of a character: where no
token follows, it is set one byte on. -/
def loses : List Char → Bool
  | [] => true
  | c :: _ => c.utf8Size ≠ 1

/-- The loop of `scrub_bearer`, `scrub.rs:82`, from the cursor on, of which some characters have been
passed. What is not pushed before the cursor is lost is nothing. -/
def scrubBearerFrom : Nat → List Char → Option (List Char)
  | _, [] => some []
  | skip + 1, _ :: rest => scrubBearerFrom skip rest
  | 0, c :: rest =>
    if startsWith marker (c :: rest) then
      let after := (c :: rest).drop marker.length
      let tokenLen := (after.takeWhile isTokenChar).length
      if tokenLen < minSecret then
        if tokenLen = 0 ∧ loses after then none
        else
          let next := marker.length + max tokenLen 1
          some ((c :: rest).take next ++ (scrubBearerFrom (next - 1) rest).getD [])
      else
        some ((c :: rest).take marker.length ++ redacted ++
          (scrubBearerFrom (marker.length + tokenLen - 1) rest).getD [])
    else (scrubBearerFrom 0 rest).map (c :: ·)

/-- `scrub_bearer`, `scrub.rs:82`. -/
def scrubBearer (line : List Char) : List Char := (scrubBearerFrom 0 line).getD []

/-! ## Named values -/

/-- A quote or a blank. -/
def isLead (c : Char) : Bool := c ∈ ['"', '\'', ' ', '\t']

/-- What ends a value. -/
def isDelimiter (c : Char) : Bool := c ∈ ['"', '\'', ',', '\x7d', '\n', ';']

/-- What separates a name from its value, and what follows it, `scrub.rs:137`. -/
def separator (afterName : List Char) : Option (List Char × List Char) :=
  match afterName.dropWhile isLead with
  | [] => none
  | c :: region =>
    if c = ':' ∨ c = '=' then
      some (afterName.takeWhile isLead ++ c :: region.takeWhile isLead, region.dropWhile isLead)
    else none

/-- The value at the front of a text, `scrub.rs:169`. -/
def trimmed (value : List Char) : List Char :=
  trimEnd (value.takeWhile fun c ↦ !isDelimiter c)

section

/- Which characters beyond ASCII are alphanumeric. -/
variable (beyond : Char → Bool)

/-- `is_alphanumeric`, or an underscore. -/
def isWord (c : Char) : Bool := if c.toNat < 128 then c.isAlphanum || c = '_' else beyond c

/-- What `scrub_one_named`, `scrub.rs:119`, does where it finds a name. -/
def namedRule (name : List Char) : Rule Char := fun prev line ↦
  if startsWith name line then
    match separator (line.drop name.length) with
    | none => some (line.take name.length, name.length)
    | some (separator, value) =>
      if prev.any (isWord beyond) then some (line.take name.length, name.length)
      else if trimmed value = [] then
        some (line.take name.length ++ separator, name.length + separator.length)
      else
        some (line.take name.length ++ separator ++ redacted,
          name.length + separator.length + (trimmed value).length)
  else none

/-- `scrub_one_named`, `scrub.rs:119`. -/
def scrubOneNamed (line name : List Char) : List Char := (namedRule beyond name).scan none 0 line

/-- `scrub_named`, `scrub.rs:111`. -/
def scrubNamed (line : List Char) : List Char :=
  credentialNames.foldl (fun out name ↦ scrubOneNamed beyond out name.toList) line

end

/-! ## Tokens by their shape -/

/-- `is_separator`, `scrub.rs:248`. -/
def isSeparator (c : Char) : Bool :=
  isWhitespace c || c ∈ ['"', '\'', ',', ';', '\x7d', ')', ']', '=', '?', '&', '(', '[', '<', '>',
    '|']

/-- The bytes of a text. -/
def byteLength (text : List Char) : Nat := (text.map Char.utf8Size).sum

/-- `is_secret_shaped`, `scrub.rs:216`. -/
def isSecretShaped (word : List Char) : Bool :=
  if byteLength word < minSecret then false
  else if (startsWith "sk-".toList word || startsWith "sk_".toList word) && 12 ≤ byteLength word then
    true
  else if startsWith "ya29.".toList word then true
  else "eyJ".toList.isPrefixOf word && (word.splitOn '.').length = 3

/-- A word, as it is shown. -/
def shown (word : List Char) : List Char := if isSecretShaped word then redacted else word

/-- `scrub_self_identifying`, `scrub.rs:194`, after the front of a word. -/
def scrubWords (word : List Char) : List Char → List Char
  | [] => shown word
  | c :: rest =>
    if isSeparator c then shown word ++ c :: scrubWords [] rest else scrubWords (word ++ [c]) rest

/-- `scrub_self_identifying`, `scrub.rs:194`. -/
def scrubSelfIdentifying (line : List Char) : List Char := scrubWords [] line

/-- `scrub`, `scrub.rs:65`. -/
def scrub (beyond : Char → Bool) (line : List Char) : List Char :=
  scrubSelfIdentifying (scrubNamed beyond (scrubBearer line))

/-! ## Lines of events -/

/-- What is between the quotes of a text, or the text. -/
def unquote : List Char → List Char
  | '"' :: rest => if rest.getLast? = some '"' then rest.dropLast else '"' :: rest
  | rendered => rendered

/-- `Message::push`, `lib.rs:252`, of a field whose value is rendered for debugging, onto the text of
the fields before it. -/
def push (text : List Char) (field : String) (rendered : List Char) : List Char :=
  if field = "message" then
    if text = [] then unquote rendered else unquote rendered ++ ' ' :: text
  else (if text = [] then [] else text ++ [' ']) ++ field.toList ++ '=' :: unquote rendered

end NullRouter.Logship
