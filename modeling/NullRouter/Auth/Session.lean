import NullRouter.Auth.Login
import NullRouter.Base.Base64
import NullRouter.Base.Bytes

/-!
# Session tokens

`SessionCodec` of `services/auth-actix/src/session.rs`: how a token is minted and verified. The
text of its claims is written as `serde_json` writes it; what that reads, and HMAC-SHA256 under the
secret, are parameters. The verifier takes no token of more than 4096 bytes, and the minter does
not look at the size of what it mints.
-/

namespace NullRouter.Auth

open NullRouter.Base
open NullRouter.Base.Base64 (urlSafe)

/-! ## Claims -/

/-- `TokenHeader`, `session.rs:23`. -/
structure TokenHeader where
  alg : String
  typ : String
  deriving DecidableEq

/-- `SessionClaims`, `session.rs:29`. -/
structure SessionClaims where
  authenticated : Bool
  iat : Nat
  exp : Nat
  sub : Option String := none
  name : Option String := none
  role : Option String := none
  deriving DecidableEq

/-- `SessionIdentity`, `session.rs:54`. -/
structure SessionIdentity where
  userId : Option String
  displayName : Option String
  role : Option String
  deriving DecidableEq

/-- A hexadecimal digit. -/
def hexDigit (n : Nat) : Char := "0123456789abcdef".toList.getD n '0'

/-- How `serde_json` escapes a character. -/
def escapeChar (c : Char) : List Char :=
  if c = '"' then ['\\', '"']
  else if c = '\\' then ['\\', '\\']
  else if c.toNat = 0x08 then ['\\', 'b']
  else if c.toNat = 0x09 then ['\\', 't']
  else if c.toNat = 0x0A then ['\\', 'n']
  else if c.toNat = 0x0C then ['\\', 'f']
  else if c.toNat = 0x0D then ['\\', 'r']
  else if c.toNat < 0x20 then
    ['\\', 'u', '0', '0', hexDigit (c.toNat / 16), hexDigit (c.toNat % 16)]
  else [c]

/-- How `serde_json` writes a string. -/
def stringText (text : String) : List Char := '"' :: text.toList.flatMap escapeChar ++ ['"']

/-- How `serde_json` writes a structure. -/
def objectText (fields : List (String × List Char)) : List Char :=
  '\x7b' :: [','].intercalate (fields.map fun field ↦ stringText field.1 ++ ':' :: field.2) ++
    ['\x7d']

/-- `serde_json::to_vec` of a header. -/
def TokenHeader.text (header : TokenHeader) : List Char :=
  objectText [("alg", stringText header.alg), ("typ", stringText header.typ)]

/-- `serde_json::to_vec` of claims, which leaves out what there is not. -/
def SessionClaims.text (claims : SessionClaims) : List Char :=
  let optional := fun (key : String) (value : Option String) ↦
    (value.map fun text ↦ (key, stringText text)).toList
  objectText ([("authenticated", (toString claims.authenticated).toList),
      ("iat", (toString claims.iat).toList), ("exp", (toString claims.exp).toList)] ++
    optional "sub" claims.sub ++ optional "name" claims.name ++ optional "role" claims.role)

/-- The bytes of a text. -/
def utf8 (text : List Char) : List UInt8 := Bytes.ofText (String.ofList text)

/-- What `serde_json` reads of the bytes of a token. -/
structure TokenReader where
  header : List UInt8 → Option TokenHeader
  claims : List UInt8 → Option SessionClaims

/-! ## Tokens -/

/-- `MAX_TOKEN_BYTES`, `session.rs:10`. -/
def maxTokenBytes : Nat := 4096

/-- `MAX_CLOCK_SKEW_SECONDS`, `session.rs:11`. -/
def maxClockSkewSeconds : Nat := 60

/-- `SessionCodec`, `session.rs:15`, with HMAC-SHA256 under its secret, and its `ttl` in seconds. -/
structure SessionCodec where
  mac : List UInt8 → { tag : List UInt8 // tag.length = 32 }
  ttl : Nat

namespace SessionCodec

variable (codec : SessionCodec) (reader : TokenReader)

/-- The header of every token. -/
def header : TokenHeader := ⟨"HS256", "JWT"⟩

/-- The claims of a session that is created at a time, until another. -/
def claims (now exp : Nat) (session : NewSession) : SessionClaims where
  authenticated := true
  iat := now
  exp
  sub := session.userId
  name := session.displayName
  role := session.role

/-- What of a token is signed, `session.rs:112`. -/
def signingInput (now exp : Nat) (session : NewSession) : List Char :=
  urlSafe.encode (utf8 header.text) ++ '.' :: urlSafe.encode (utf8 (claims now exp session).text)

/-- `create_token_for`, `session.rs:87`. -/
def createTokenFor (now : Nat) (session : NewSession) : Option (List Char) :=
  (checkedAdd64 now codec.ttl).map fun exp ↦
    let signingInput := signingInput now exp session
    signingInput ++ '.' :: urlSafe.encode (codec.mac (utf8 signingInput)).val

/-- `signature_and_bounds_hold`, `session.rs:149`. -/
def signatureAndBoundsHold (token : List Char) (now : Nat) : Bool :=
  if token = [] ∨ maxTokenBytes < (utf8 token).length then false
  else
    match token.splitOn '.' with
    | [header, claims, signature] =>
      match urlSafe.decode signature with
      | none => false
      | some signature =>
        if signature ≠ codec.mac (utf8 (header ++ '.' :: claims)) then false
        else
          match (urlSafe.decode header).bind reader.header with
          | none => false
          | some header =>
            if header.alg ≠ "HS256" ∨ header.typ ≠ "JWT" then false
            else
              match (urlSafe.decode claims).bind reader.claims with
              | none => false
              | some claims =>
                claims.authenticated && claims.iat ≤ satAdd64 now maxClockSkewSeconds &&
                  now < claims.exp && claims.iat < claims.exp &&
                  claims.exp - claims.iat ≤ codec.ttl
    | _ => false

/-- `verified_claims`, `session.rs:140`. -/
def verifiedClaims (token : List Char) (now : Nat) : Option SessionClaims :=
  if codec.signatureAndBoundsHold reader token now then
    ((token.splitOn '.')[1]?.bind urlSafe.decode).bind reader.claims
  else none

/-- `identity`, `session.rs:131`. -/
def identity (token : List Char) (now : Nat) : Option SessionIdentity :=
  (codec.verifiedClaims reader token now).map fun claims ↦ ⟨claims.sub, claims.name, claims.role⟩

end SessionCodec

/-- Who a session is minted for. -/
def NewSession.identity (session : NewSession) : SessionIdentity :=
  ⟨session.userId, session.displayName, session.role⟩

/-! ## Minting and verifying -/

section

variable {codec : SessionCodec} {reader : TokenReader}

private theorem of_mem_symbols {c : Char} (h : c ∈ urlSafe.symbols) :
    c.utf8Size = 1 ∧ c ≠ '.' := by
  have hall : ∀ c ∈ urlSafe.symbols, c.utf8Size = 1 ∧ c ≠ '.' :=
    forall_mem_of_all (by decide +kernel)
  exact hall c h

private theorem dot_notMem_encode (bytes : List UInt8) : '.' ∉ urlSafe.encode bytes :=
  fun h ↦ (of_mem_symbols (urlSafe.mem_symbols_of_mem_encode h)).2 rfl

private theorem length_utf8 {text : List Char} (h : ∀ c ∈ text, c.utf8Size = 1) :
    (utf8 text).length = text.length := by
  rw [utf8, Bytes.ofText, String.toList_ofList]
  induction text with
  | nil => rfl
  | cons c text ih =>
    rw [List.forall_mem_cons] at h
    rw [List.flatMap_cons, List.length_append, ih h.2, String.length_utf8EncodeChar, h.1,
      List.length_cons, Nat.add_comm]

private theorem splitOn_token (header claims signature : List UInt8) :
    ((urlSafe.encode header ++ '.' :: urlSafe.encode claims) ++
        '.' :: urlSafe.encode signature).splitOn '.' =
      [urlSafe.encode header, urlSafe.encode claims, urlSafe.encode signature] := by
  rw [List.append_assoc, List.cons_append,
    List.splitOn_append_cons_self_of_not_mem (dot_notMem_encode _),
    List.splitOn_append_cons_self_of_not_mem (dot_notMem_encode _),
    List.splitOn_eq_singleton (dot_notMem_encode _)]

private theorem length_token (now exp : Nat) (session : NewSession) :
    (utf8 (SessionCodec.signingInput now exp session ++ '.' ::
      urlSafe.encode (codec.mac (utf8 (SessionCodec.signingInput now exp session))).val)).length =
        81 + (4 * (utf8 (SessionCodec.claims now exp session).text).length + 2) / 3 := by
  have hheader : (utf8 SessionCodec.header.text).length = 27 := by decide +kernel
  rw [length_utf8]
  · rw [SessionCodec.signingInput]
    simp only [List.length_append, List.length_cons, urlSafe.length_encode, hheader,
      (codec.mac _).property]
    omega
  · intro c hc
    have hsymbol (bytes : List UInt8) (h : c ∈ urlSafe.encode bytes) : c.utf8Size = 1 :=
      (of_mem_symbols (urlSafe.mem_symbols_of_mem_encode h)).1
    rw [SessionCodec.signingInput] at hc
    simp only [List.append_assoc, List.cons_append, List.mem_append, List.mem_cons] at hc
    rcases hc with h | rfl | h | rfl | h
    · exact hsymbol _ h
    · rfl
    · exact hsymbol _ h
    · rfl
    · exact hsymbol _ h

/-- What was written of claims, and of the header of every token, is read back. -/
structure TokenReader.ReadsBack (reader : TokenReader) (claims : SessionClaims) : Prop where
  header : reader.header (utf8 SessionCodec.header.text) = some SessionCodec.header
  claims : reader.claims (utf8 claims.text) = some claims

/-- A token that was minted is verified by its size and its times. -/
theorem verifiedClaims_minted {now exp : Nat} {session : NewSession}
    (hreads : reader.ReadsBack (SessionCodec.claims now exp session)) (t : Nat) :
    codec.verifiedClaims reader (SessionCodec.signingInput now exp session ++ '.' ::
      urlSafe.encode (codec.mac (utf8 (SessionCodec.signingInput now exp session))).val) t =
    if 81 + (4 * (utf8 (SessionCodec.claims now exp session).text).length + 2) / 3 ≤ maxTokenBytes ∧
        now ≤ satAdd64 t maxClockSkewSeconds ∧ t < exp ∧ now < exp ∧ exp - now ≤ codec.ttl then
      some (SessionCodec.claims now exp session)
    else none := by
  have hsplit := splitOn_token (utf8 SessionCodec.header.text)
    (utf8 (SessionCodec.claims now exp session).text)
    (codec.mac (utf8 (SessionCodec.signingInput now exp session))).val
  rw [← SessionCodec.signingInput] at hsplit
  have hinput : urlSafe.encode (utf8 SessionCodec.header.text) ++
      '.' :: urlSafe.encode (utf8 (SessionCodec.claims now exp session).text) =
        SessionCodec.signingInput now exp session := rfl
  rw [SessionCodec.verifiedClaims, SessionCodec.signatureAndBoundsHold, length_token, hsplit]
  simp only [List.append_eq_nil_iff, List.cons_ne_nil, and_false, false_or, urlSafe.decode_encode,
    hinput, ne_eq, not_true_eq_false, if_false, Option.bind_some, hreads.header, hreads.claims,
    List.getElem?_cons_succ, List.getElem?_cons_zero]
  by_cases hlong : maxTokenBytes < 81 +
      (4 * (utf8 (SessionCodec.claims now exp session).text).length + 2) / 3
  · rw [if_pos hlong, if_neg Bool.false_ne_true, if_neg fun h ↦ absurd h.1 (by omega)]
  · rw [if_neg hlong]
    have hbounds : (SessionCodec.claims now exp session).authenticated = true := rfl
    simp only [SessionCodec.header, not_true_eq_false, or_self, if_false, Bool.and_eq_true,
      decide_eq_true_eq, and_assoc]
    refine if_congr ?_ rfl rfl
    constructor
    · rintro ⟨-, hiat, hexp, hless, hspan⟩
      exact ⟨by omega, hiat, hexp, hless, hspan⟩
    · rintro ⟨-, hiat, hexp, hless, hspan⟩
      exact ⟨rfl, hiat, hexp, hless, hspan⟩

/-- A token is minted for a session, and verified as its until it expires. -/
def SessionCodec.Keeps (codec : SessionCodec) (reader : TokenReader) (now : Nat)
    (session : NewSession) : Prop :=
  ∃ token, codec.createTokenFor now session = some token ∧
    ∀ t, now ≤ t → t < now + codec.ttl → codec.identity reader token t = some session.identity

/-- A session keeps exactly where its end fits into 64 bits and, unless it ends at once, the text of
its claims into 3011 bytes. -/
theorem keeps_iff {now : Nat} {session : NewSession}
    (hreads : reader.ReadsBack (SessionCodec.claims now (now + codec.ttl) session)) :
    codec.Keeps reader now session ↔ now + codec.ttl ≤ u64Max ∧
      (codec.ttl = 0 ∨
        (utf8 (SessionCodec.claims now (now + codec.ttl) session).text).length ≤ 3011) := by
  rw [SessionCodec.Keeps, SessionCodec.createTokenFor, checkedAdd64]
  by_cases hfits : now + codec.ttl ≤ u64Max
  · rw [if_pos hfits]
    simp only [Option.map_some, Option.some.injEq, exists_eq_left', hfits, true_and]
    simp only [SessionCodec.identity, verifiedClaims_minted hreads]
    constructor
    · intro hall
      by_cases hzero : codec.ttl = 0
      · exact .inl hzero
      · have hnow := hall now (Nat.le_refl _) (by omega)
        obtain ⟨claims, hclaims, -⟩ := Option.map_eq_some_iff.mp hnow
        have hlength := ((Option.ite_none_right_eq_some).mp hclaims).1.1
        rw [maxTokenBytes] at hlength
        exact .inr (by omega)
    · rintro hlength t hstart hend
      rw [if_pos]
      · rfl
      · have hskew : now ≤ satAdd64 t maxClockSkewSeconds := by
          have hmin : satAdd64 t maxClockSkewSeconds = min (t + maxClockSkewSeconds) u64Max := rfl
          rw [hmin]
          omega
        rw [maxTokenBytes]
        rcases hlength with hzero | hlength
        · omega
        · exact ⟨by omega, hskew, hend, by omega, by omega⟩
  · rw [if_neg hfits]
    exact iff_of_false (fun ⟨_, htoken, _⟩ ↦ by cases htoken) fun h ↦ hfits h.1

/-- What a signature is good for, taken as ideal: whoever presents one of a text under the secret
has it of a token that was minted. -/
def SessionCodec.Unforged (codec : SessionCodec) (minted : Set (Nat × NewSession))
    (token : List Char) : Prop :=
  ∀ header claims signature, token.splitOn '.' = [header, claims, signature] →
    urlSafe.decode signature = some (codec.mac (utf8 (header ++ '.' :: claims))).val →
      ∃ mint ∈ minted, mint.1 + codec.ttl ≤ u64Max ∧
        header ++ '.' :: claims =
          SessionCodec.signingInput mint.1 (mint.1 + codec.ttl) mint.2

private theorem splitOn_of_holds {token : List Char} {t : Nat}
    (h : codec.signatureAndBoundsHold reader token t = true) :
    ∃ header claims signature, token.splitOn '.' = [header, claims, signature] ∧
      urlSafe.decode signature = some (codec.mac (utf8 (header ++ '.' :: claims))).val := by
  rw [SessionCodec.signatureAndBoundsHold] at h
  split at h
  · cases h
  · split at h
    · next header claims signature hparts =>
      refine ⟨header, claims, signature, hparts, ?_⟩
      split at h
      · cases h
      · next tag htag =>
        split at h
        · cases h
        · next hmac =>
          rw [htag, not_not.mp hmac]
    · cases h

/-- A token that is verified, and that was not forged, was minted for the identity that it is
verified as, and has not expired. -/
theorem minted_of_identity {minted : Set (Nat × NewSession)}
    (hreads : ∀ mint ∈ minted,
      reader.ReadsBack (SessionCodec.claims mint.1 (mint.1 + codec.ttl) mint.2))
    {token : List Char} {t : Nat} {identity : SessionIdentity}
    (hunforged : codec.Unforged minted token)
    (h : codec.identity reader token t = some identity) :
    ∃ mint ∈ minted, codec.createTokenFor mint.1 mint.2 = some token ∧
      identity = mint.2.identity ∧ t < mint.1 + codec.ttl := by
  obtain ⟨claims, hclaims, rfl⟩ := Option.map_eq_some_iff.mp h
  have hholds := ((Option.ite_none_right_eq_some).mp hclaims).1
  obtain ⟨header, text, signature, hparts, hsignature⟩ := splitOn_of_holds hholds
  obtain ⟨mint, hmint, hfits, hinput⟩ := hunforged header text signature hparts hsignature
  have htoken : token = SessionCodec.signingInput mint.1 (mint.1 + codec.ttl) mint.2 ++ '.' ::
      urlSafe.encode (codec.mac (utf8
        (SessionCodec.signingInput mint.1 (mint.1 + codec.ttl) mint.2))).val := by
    have hjoined : ['.'].intercalate (token.splitOn '.') = token := List.intercalate_splitOn '.'
    rw [hparts] at hjoined
    rw [← hinput, ← (Base64.Alphabet.decode_eq_some_iff.mp hsignature), ← hjoined]
    simp [List.intercalate]
  have hverified := @verifiedClaims_minted codec reader _ _ _ (hreads mint hmint) t
  rw [← htoken, hclaims] at hverified
  obtain ⟨⟨-, -, hexp, -⟩, hsome⟩ := (Option.ite_none_right_eq_some).mp hverified.symm
  obtain rfl := Option.some.inj hsome
  refine ⟨mint, hmint, ?_, rfl, hexp⟩
  rw [SessionCodec.createTokenFor, checkedAdd64, if_pos hfits, htoken]
  rfl

/-- Of the sessions that are minted, each keeps exactly where its end fits into 64 bits and, unless
it ends at once, the text of its claims into 3011 bytes; and a token is verified only as one of
them that has not expired. -/
theorem tokens_verify_iff {minted : Set (Nat × NewSession)}
    (hreads : ∀ mint ∈ minted,
      reader.ReadsBack (SessionCodec.claims mint.1 (mint.1 + codec.ttl) mint.2)) :
    (∀ mint ∈ minted, codec.Keeps reader mint.1 mint.2 ↔ mint.1 + codec.ttl ≤ u64Max ∧
      (codec.ttl = 0 ∨
        (utf8 (SessionCodec.claims mint.1 (mint.1 + codec.ttl) mint.2).text).length ≤ 3011)) ∧
    ∀ token t identity, codec.Unforged minted token →
      codec.identity reader token t = some identity →
        ∃ mint ∈ minted, codec.createTokenFor mint.1 mint.2 = some token ∧
          identity = mint.2.identity ∧ t < mint.1 + codec.ttl :=
  ⟨fun mint hmint ↦ keeps_iff (hreads mint hmint),
    fun _ _ _ hunforged h ↦ minted_of_identity hreads hunforged h⟩

/-! ## Long names -/

private theorem length_le_utf8 (text : List Char) : text.length ≤ (utf8 text).length := by
  rw [utf8, Bytes.ofText, String.toList_ofList]
  induction text with
  | nil => exact Nat.le_refl _
  | cons c text ih =>
    have hsize := c.utf8Size_pos
    rw [List.flatMap_cons, List.length_append, String.length_utf8EncodeChar, List.length_cons]
    omega

private theorem length_le_stringText (text : String) :
    text.toList.length ≤ (stringText text).length := by
  rw [stringText]
  generalize text.toList = chars
  have hescaped : chars.length ≤ (chars.flatMap escapeChar).length := by
    induction chars with
    | nil => exact Nat.le_refl _
    | cons c chars ih =>
      have hone : 1 ≤ (escapeChar c).length := by
        rw [escapeChar]
        repeat' split
        all_goals simp
      rw [List.flatMap_cons, List.length_append, List.length_cons]
      omega
  simp only [List.length_append, List.length_cons]
  omega

private theorem length_le_intercalate {part : List Char} {parts : List (List Char)}
    (h : part ∈ parts) : part.length ≤ ([','].intercalate parts).length := by
  induction parts with
  | nil => cases h
  | cons first rest ih =>
    cases rest with
    | nil =>
      rw [List.mem_singleton.mp h]
      simp
    | cons second rest =>
      rw [List.intercalate_cons_cons, List.length_append, List.length_append]
      rcases List.mem_cons.mp h with rfl | h
      · omega
      · have hrest := ih h
        omega

/-- Claims are no shorter than the display name in them. -/
theorem length_le_claims {claims : SessionClaims} {name : String} (h : claims.name = some name) :
    name.toList.length ≤ (utf8 claims.text).length := by
  have hfield : stringText "name" ++ ':' :: stringText name ∈
      ([("authenticated", (toString claims.authenticated).toList),
        ("iat", (toString claims.iat).toList), ("exp", (toString claims.exp).toList)] ++
          (claims.sub.map fun text ↦ ("sub", stringText text)).toList ++
          (claims.name.map fun text ↦ ("name", stringText text)).toList ++
          (claims.role.map fun text ↦ ("role", stringText text)).toList).map
        (fun field ↦ stringText field.1 ++ ':' :: field.2) := by
    refine List.mem_map.mpr ⟨("name", stringText name), ?_, rfl⟩
    simp [h]
  have hpart := length_le_intercalate hfield
  have hname := length_le_stringText name
  have hbytes := length_le_utf8 claims.text
  rw [List.length_append, List.length_cons] at hpart
  refine Nat.le_trans ?_ hbytes
  rw [SessionClaims.text, objectText, List.length_append, List.length_cons]
  dsimp only
  omega

end

/-- A reader that knows the header and one session's claims. -/
def readerOf (claims : SessionClaims) : TokenReader where
  header bytes := if bytes = utf8 SessionCodec.header.text then some SessionCodec.header else none
  claims bytes := if bytes = utf8 claims.text then some claims else none

theorem readsBack_readerOf (claims : SessionClaims) : (readerOf claims).ReadsBack claims := by
  constructor
  · simp only [readerOf, if_true]
  · simp only [readerOf, if_true]

/-- A codec for a day, with the tag that HMAC-SHA256 under `0123456789abcdef0123456789abcdef` gives
what is signed of `ada` at second 100. -/
def dayCodec : SessionCodec where
  mac _ := ⟨[229, 116, 78, 181, 197, 249, 4, 85, 140, 33, 6, 85, 252, 149, 186, 141, 253, 166, 41,
    220, 254, 174, 250, 107, 130, 244, 156, 203, 233, 55, 221, 114], by decide⟩
  ttl := 86400

/-- A managed account's session. -/
def ada : NewSession := ⟨some "user_1", some "Ada", some "admin"⟩

/-- The session of an account with a short name keeps. -/
theorem tokens_verify_ada :
    dayCodec.Keeps (readerOf (SessionCodec.claims 100 86500 ada)) 100 ada := by
  have hreads : ∀ mint ∈ ({(100, ada)} : Set (Nat × NewSession)),
      (readerOf (SessionCodec.claims 100 86500 ada)).ReadsBack
        (SessionCodec.claims mint.1 (mint.1 + dayCodec.ttl) mint.2) := by
    rintro mint rfl
    exact readsBack_readerOf _
  exact ((tokens_verify_iff hreads).1 (100, ada) rfl).mpr
    ⟨by decide +kernel, .inr (by decide +kernel)⟩

/-- The session of an account whose name has four thousand letters. -/
def longNamed : NewSession := ⟨some "user_1", some (String.ofList (List.replicate 4000 'a')), none⟩

/-- A token is minted for it, and is not verified even at once. -/
theorem long_name_not_kept : (dayCodec.createTokenFor 100 longNamed).isSome = true ∧
    ¬ dayCodec.Keeps (readerOf (SessionCodec.claims 100 86500 longNamed)) 100 longNamed := by
  refine ⟨rfl, fun h ↦ ?_⟩
  have hreads := readsBack_readerOf (SessionCodec.claims 100 86500 longNamed)
  rcases ((@keeps_iff dayCodec _ 100 longNamed hreads).mp h).2 with hzero | hlength
  · cases hzero
  · have hname := @length_le_claims (SessionCodec.claims 100 86500 longNamed) _ rfl
    rw [String.toList_ofList, List.length_replicate] at hname
    exact absurd (Nat.le_trans hname hlength) (by decide)

end NullRouter.Auth
