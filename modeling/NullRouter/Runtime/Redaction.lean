import NullRouter.Base.Offsets
import NullRouter.Procctl.Secret
import NullRouter.Runtime.Video
import NullRouter.State.Cooldown

/-!
# What relayed texts show of a credential

`scrub` of `services/runtime-actix/src/video.rs:533` and of `crates/procctl/src/secret.rs:72`: where
neither a credential nor a part of one is left in the text.
-/

namespace NullRouter.Runtime

open NullRouter.Base NullRouter.State

/-- The credentials that `scrub` replaces, in its order. -/
def secretsOf (credentials : ProviderConnection) : List String :=
  ([credentials.accessToken, credentials.refreshToken, credentials.apiKey].filterMap id).filter
    fun secret ↦ 8 ≤ secret.utf8ByteSize

/-- `bearerRule` on placed characters. -/
def bearerPlaced : Rule (Placed Char) := fun _ text ↦
  if ((text.take 6).map Prod.fst).map Char.toLower = "bearer".toList then
    let blanks := ((text.drop 6).map Prod.fst).takeWhile isWhitespace
    let token := (((text.drop 6).map Prod.fst).dropWhile isWhitespace).takeWhile isBearerChar
    if 8 ≤ token.length then
      some (written ("Bearer ".toList ++ redactedMark), 6 + blanks.length + token.length)
    else some (text.take 6, 6)
  else none

/-- `scrub` on placed characters. -/
def scrubPlaced (text : List (Placed Char)) (credentials : ProviderConnection) :
    List (Placed Char) :=
  bearerPlaced.scan none 0
    (maskAll redactedMark ((secretsOf credentials).map String.toList) (text.take 2000))

/-- A text shows nothing of the secrets of the text that it was made of: it holds none of them, and
no character of an occurrence is copied. -/
def Conceals (secrets : List (List Char)) (text : List Char) (out : List (Placed Char)) : Prop :=
  (∀ secret ∈ secrets, ¬ secret <:+: out.map Prod.fst) ∧
    ∀ secret ∈ secrets, ∀ a, OccursAt secret text a →
      ∀ place, a ≤ place → place < a + secret.length → ∀ c, (c, some place) ∉ out

/-- Texts that are `bearer` but for case. -/
def IsBearer (word : List Char) : Prop := word.map Char.toLower = "bearer".toList

/-- Where secrets are replaced in turn without a trace: an occurrence that meets one of a secret
before it, or of the same, lies in that one, and no secret can be read across the mask, unless
there is none in the text. -/
structure Separate (mask : List Char) (secrets : List (List Char)) (text : List Char) : Prop where
  own : ∀ secret ∈ secrets, Nested text secret secret
  others : secrets.Pairwise (Nested text)
  apart : (∀ secret ∈ secrets, Apart secret mask) ∨ ∀ secret ∈ secrets, ¬ secret <:+: text

/-- Where besides the text is cut and bearer tokens are masked without a trace: no occurrence is cut
at the limit, and no secret ends in a part of `Bearer ` that would be written in place of another
spelling; a text without secrets has no bearer, or the secrets are apart from the mask. -/
structure Relayable (secrets : List (List Char)) (text : List Char) : Prop where
  separate : Separate redactedMark secrets (text.take 2000)
  cut : ∀ secret ∈ secrets, ∀ a, OccursAt secret text a → a < 2000 → a + secret.length ≤ 2000
  bearer : ∀ secret ∈ secrets, ∀ u v word, secret = u ++ v → v ≠ [] → v <+: "Bearer ".toList →
    IsBearer word → ¬ v <+: word → ¬ u ++ word <:+: text.take 2000
  apart : (∀ secret ∈ secrets, Apart secret redactedMark) ∨
    ∀ word, IsBearer word → ¬ word <:+: text.take 2000

/-! ## Secrets replaced in turn -/

section Secrets

variable {mask : List Char} {secrets : List (List Char)} {text : List Char}

/-- Secrets that are not in a text are replaced nowhere. -/
theorem maskAll_of_absent (h : ∀ secret ∈ secrets, ¬ secret <:+: text) :
    maskAll mask secrets (placed text) = placed text := by
  induction secrets with
  | nil => rfl
  | cons secret secrets ih =>
    rw [List.forall_mem_cons] at h
    rw [maskAll, List.foldl_cons, scan_replacing_of_absent (by rw [map_fst_placed]; exact h.1)]
    exact ih h.2

/-- What is left of a text when separate secrets are replaced. -/
theorem conceals_maskAll (hne : ∀ secret ∈ secrets, secret ≠ []) (h : Separate mask secrets text) :
    Conceals secrets text (maskAll mask secrets (placed text)) := by
  rcases h.apart with hapart | hnone
  · obtain ⟨cells, hcells, hhides⟩ := exists_hides hapart hne h.own h.others
    rw [hcells]
    exact ⟨fun secret hmem ↦ hhides.not_infix hmem (hapart secret hmem) (hne secret hmem),
      fun secret hmem a hoccurs place hle hlt c ↦ hhides.not_copied hmem hoccurs hle hlt⟩
  · rw [maskAll_of_absent hnone]
    refine ⟨fun secret hmem ↦ by rw [map_fst_placed]; exact hnone secret hmem,
      fun secret hmem a hoccurs ↦ ?_⟩
    exact absurd (hoccurs.isInfix.trans (List.drop_suffix a text).isInfix) (hnone secret hmem)

/-- What is read in a text with masks is read in the text, if it is apart from the mask. -/
theorem infix_of_infix_maskAll {needle : List Char} (hne : ∀ secret ∈ secrets, secret ≠ [])
    (h : Separate mask secrets text) (hapart : Apart needle mask) (hneedle : needle ≠ [])
    (hinfixed : needle <:+: (maskAll mask secrets (placed text)).map Prod.fst) : needle <:+: text := by
  rcases h.apart with hall | hnone
  · obtain ⟨cells, hcells, hhides⟩ := exists_hides hall hne h.own h.others
    rw [hcells] at hinfixed
    obtain ⟨place, hoccurs, -⟩ := hhides.masks.of_part hapart hneedle hinfixed
    exact hoccurs.isInfix.trans (List.drop_suffix place text).isInfix
  · rwa [maskAll_of_absent hnone, map_fst_placed] at hinfixed

end Secrets

/-! ## The pass for bearer tokens -/

section Bearer

variable {needle u v word text : List Char}

theorem traces_bearer : Traces bearerPlaced bearerRule := by
  intro prev text
  rw [bearerRule, bearerPlaced]
  simp only [List.map_take, List.map_drop]
  split
  · split
    · simp
    · simp [List.map_take]
  · rfl

theorem copies_bearer : Copies bearerPlaced := by
  intro prev text new read hstep c place hmem
  rw [bearerPlaced] at hstep
  split at hstep
  · simp only at hstep
    split at hstep
    · obtain ⟨rfl, -⟩ := Prod.mk.injEq .. ▸ Option.some.inj hstep
      simp [written] at hmem
    · obtain ⟨rfl, -⟩ := Prod.mk.injEq .. ▸ Option.some.inj hstep
      exact List.mem_of_mem_take hmem
  · cases hstep

theorem IsBearer.length_eq (h : IsBearer word) : word.length = 6 := by
  rw [← List.length_map Char.toLower, h]
  rfl

theorem IsBearer.ne_nil (h : IsBearer word) : word ≠ [] :=
  List.ne_nil_of_length_pos (by rw [h.length_eq]; decide)

/-- What the pass does at a place: nothing, or it copies a `bearer`, or it writes its own words for
a `bearer` and what follows. -/
theorem bearerRule_cases (prev : Option Char) (text : List Char) :
    bearerRule prev text = none ∨ ∃ word front rest, IsBearer word ∧ text = front ++ rest ∧
      word <+: front ∧ (bearerRule prev text = some (front, front.length) ∨
        bearerRule prev text = some ("Bearer ".toList ++ redactedMark, front.length)) := by
  by_cases hword : (text.take 6).map Char.toLower = "bearer".toList
  · right
    have hlength : (text.take 6).length = 6 := IsBearer.length_eq hword
    rw [bearerRule, if_pos hword]
    simp only
    split
    · have hread : 6 + ((text.drop 6).takeWhile isWhitespace).length +
          (((text.drop 6).dropWhile isWhitespace).takeWhile isBearerChar).length ≤
            text.length := by
        have hblanks := congrArg List.length
          (@List.takeWhile_append_dropWhile _ isWhitespace (text.drop 6))
        have htoken := (List.takeWhile_prefix (l := (text.drop 6).dropWhile isWhitespace)
          isBearerChar).length_le
        rw [List.length_take] at hlength
        rw [List.length_append, List.length_drop] at hblanks
        omega
      refine ⟨text.take 6, text.take _, text.drop _, hword, (List.take_append_drop _ _).symm, ?_,
        .inr (by rw [List.length_take, Nat.min_eq_left hread])⟩
      exact List.take_prefix_take_left (by omega)
    · exact ⟨text.take 6, text.take 6, text.drop 6, hword, (List.take_append_drop _ _).symm,
        List.prefix_refl _, .inl (by rw [hlength])⟩
  · left
    rw [bearerRule, if_neg hword]

/-- A needle that ends in a part of `Bearer ` where the text has another spelling. -/
structure Respells (needle u v word : List Char) : Prop where
  eq : needle = u ++ v
  ne : v ≠ []
  own : v <+: "Bearer ".toList
  word : IsBearer word

/-- What is read at the start of what the pass leaves, and does not run into a mask, is read at the
start of the text, or a `bearer` stands there for its end. -/
theorem prefix_of_prefix_bearer (hapart : Apart needle redactedMark) {prev : Option Char}
    {s : List Char} (hs : s <:+ needle) (h : s <+: bearerRule.scan prev 0 text) :
    s <+: text ∨ ∃ u v word, Respells s u v word ∧ u ++ word <+: text := by
  induction hn : text.length using Nat.strongRecOn generalizing text prev s with
  | ind n ih =>
    subst hn
    rcases bearerRule_cases prev text with hnone | ⟨word, front, rest, hword, rfl, hfront, hrule⟩
    · cases text with
      | nil =>
        rw [Rule.scan] at h
        exact .inl h
      | cons c text =>
        rw [Rule.scan_cons_none hnone] at h
        cases s with
        | nil => exact .inl List.nil_prefix
        | cons d s =>
          obtain ⟨rfl, htail⟩ := List.cons_prefix_cons.mp h
          rcases ih text.length (Nat.lt_succ_self _) ((List.suffix_cons d s).trans hs) htail rfl with
            hread | ⟨u, v, word, hspells, hread⟩
          · exact .inl (List.cons_prefix_cons.mpr ⟨rfl, hread⟩)
          · exact .inr ⟨d :: u, v, word, ⟨by rw [hspells.eq]; rfl, hspells.ne, hspells.own,
              hspells.word⟩, List.cons_prefix_cons.mpr ⟨rfl, hread⟩⟩
    · have hne : front ≠ [] := fun hnil ↦
        hword.ne_nil (List.prefix_nil.mp (hnil ▸ hfront))
      have hlength : rest.length < (front ++ rest).length := by
        rw [List.length_append]
        have hpos := List.length_pos_of_ne_nil hne
        omega
      rcases hrule with hcopy | hmask
      · obtain ⟨next, hscan⟩ := Rule.scan_append_of_read hne hcopy
        rw [hscan] at h
        rcases prefix_append_cases h with hin | ⟨later, rfl, hlater⟩
        · exact .inl (hin.trans (List.prefix_append front rest))
        · rcases ih rest.length hlength ((List.suffix_append front later).trans hs) hlater rfl with
            hread | ⟨u, v, word, hspells, hread⟩
          · exact .inl ((List.prefix_append_right_inj front).mpr hread)
          · refine .inr ⟨front ++ u, v, word, ⟨by rw [hspells.eq, List.append_assoc], hspells.ne,
              hspells.own, hspells.word⟩, ?_⟩
            rw [List.append_assoc]
            exact (List.prefix_append_right_inj front).mpr hread
      · obtain ⟨next, hscan⟩ := Rule.scan_append_of_read hne hmask
        rw [hscan, List.append_assoc] at h
        have hstart : word <+: front ++ rest := hfront.trans (List.prefix_append front rest)
        by_cases hnil : s = []
        · rw [hnil]
          exact .inl List.nil_prefix
        rcases prefix_append_cases h with hin | ⟨later, rfl, hlater⟩
        · exact .inr ⟨[], s, word, ⟨rfl, hnil, hin, hword⟩, hstart⟩
        · by_cases hlast : later = []
          · subst hlast
            refine .inr ⟨[], "Bearer ".toList ++ [], word, ⟨rfl, hnil, ?_, hword⟩, hstart⟩
            rw [List.append_nil]
          · exact absurd hlater
              (hapart.not_prefix_append hlast ((List.suffix_append _ later).trans hs) _)

/-- What a needle that is found in what the pass leaves was found in, unless a `bearer` stood for
its end. -/
theorem infix_of_infix_bearer (hapart : Apart needle redactedMark)
    (hlong : ¬ needle <:+: "Bearer ".toList) {prev : Option Char}
    (h : needle <:+: bearerRule.scan prev 0 text) :
    needle <:+: text ∨ ∃ u v word, Respells needle u v word ∧ u ++ word <:+: text := by
  have hprefixed {prev : Option Char} {text : List Char} (h : needle <+: bearerRule.scan prev 0 text) :
      needle <:+: text ∨ ∃ u v word, Respells needle u v word ∧ u ++ word <:+: text := by
    rcases prefix_of_prefix_bearer hapart (List.suffix_refl _) h with
      hread | ⟨u, v, word, hspells, hread⟩
    · exact .inl hread.isInfix
    · exact .inr ⟨u, v, word, hspells, hread.isInfix⟩
  have hlater {front rest : List Char} (h : needle <:+: rest ∨
      ∃ u v word, Respells needle u v word ∧ u ++ word <:+: rest) :
      needle <:+: front ++ rest ∨
        ∃ u v word, Respells needle u v word ∧ u ++ word <:+: front ++ rest := by
    have hsuffix := (List.suffix_append front rest).isInfix
    exact h.imp (·.trans hsuffix) fun ⟨u, v, word, hspells, hread⟩ ↦
      ⟨u, v, word, hspells, hread.trans hsuffix⟩
  induction hn : text.length using Nat.strongRecOn generalizing text prev with
  | ind n ih =>
    subst hn
    rcases bearerRule_cases prev text with hnone | ⟨word, front, rest, hword, rfl, hfront, hrule⟩
    · cases text with
      | nil =>
        rw [Rule.scan] at h
        exact .inl h
      | cons c text =>
        have hscan := Rule.scan_cons_none hnone
        rw [hscan, List.infix_cons_iff, ← hscan] at h
        rcases h with hstart | hrest
        · exact hprefixed hstart
        · exact @hlater [c] _ (ih text.length (Nat.lt_succ_self _) hrest rfl)
    · have hne : front ≠ [] := fun hnil ↦
        hword.ne_nil (List.prefix_nil.mp (hnil ▸ hfront))
      have hlength : rest.length < (front ++ rest).length := by
        rw [List.length_append]
        have hpos := List.length_pos_of_ne_nil hne
        omega
      rcases hrule with hcopy | hmask
      · obtain ⟨next, hscan⟩ := Rule.scan_append_of_read hne hcopy
        rw [hscan] at h
        rcases infix_append_cases h with hrest | ⟨tail, -, htail, hstart⟩
        · exact hlater (ih rest.length hlength hrest rfl)
        · -- the needle starts in what is copied
          obtain ⟨before, rfl⟩ := htail
          rw [List.append_assoc]
          apply hlater
          rcases prefix_append_cases hstart with hin | ⟨later, rfl, hgoes⟩
          · exact .inl (hin.trans (List.prefix_append tail rest)).isInfix
          · rcases prefix_of_prefix_bearer hapart (List.suffix_append tail later) hgoes with
              hread | ⟨u, v, word, hspells, hread⟩
            · exact .inl ((List.prefix_append_right_inj tail).mpr hread).isInfix
            · refine .inr ⟨tail ++ u, v, word, ⟨by rw [hspells.eq, List.append_assoc], hspells.ne,
                hspells.own, hspells.word⟩, ?_⟩
              rw [List.append_assoc]
              exact ((List.prefix_append_right_inj tail).mpr hread).isInfix
      · obtain ⟨next, hscan⟩ := Rule.scan_append_of_read hne hmask
        rw [hscan, List.append_assoc] at h
        rcases infix_append_cases h with hrest | ⟨tail, -, htail, hstart⟩
        · exact hlater (ih rest.length hlength (hapart.infix_of_append hrest) rfl)
        · exfalso
          rcases prefix_append_cases hstart with hin | ⟨later, rfl, hgoes⟩
          · exact hlong (hin.isInfix.trans htail.isInfix)
          · by_cases hlast : later = []
            · subst hlast
              rw [List.append_nil] at hlong
              exact hlong htail.isInfix
            · exact hapart.not_prefix_append hlast (List.suffix_append tail later) _ hgoes

private theorem map_toLower_mark : redactedMark.map Char.toLower = redactedMark := by
  decide

private theorem apart_bearer (hword : IsBearer word) :
    (∀ tail, tail ≠ [] → tail <:+ word → ¬ tail <+: redactedMark) ∧
      (∀ head, head ≠ [] → head <+: word → ¬ head <:+ redactedMark) ∧
        ¬ word <:+: redactedMark := by
  have hends : ∀ tail ∈ "bearer".toList.tails, tail ≠ [] → ¬ tail <+: redactedMark := by
    decide
  have hstarts : ∀ head ∈ "bearer".toList.inits, head ≠ [] → ¬ head <:+ redactedMark := by
    decide
  have hwithin : ¬ "bearer".toList <:+: redactedMark := by decide
  refine ⟨fun tail hne htail hprefixed ↦ ?_, fun head hne hhead hsuffix ↦ ?_, fun hinfixed ↦ ?_⟩
  · have hlower := htail.map Char.toLower
    have hmark := hprefixed.map Char.toLower
    rw [hword] at hlower
    rw [map_toLower_mark] at hmark
    exact hends _ ((List.mem_tails _ _).mpr hlower) (by simpa using hne) hmark
  · have hlower := hhead.map Char.toLower
    have hmark := hsuffix.map Char.toLower
    rw [hword] at hlower
    rw [map_toLower_mark] at hmark
    exact hstarts _ ((List.mem_inits _ _).mpr hlower) (by simpa using hne) hmark
  · have hmark := hinfixed.map Char.toLower
    rw [hword, map_toLower_mark] at hmark
    exact hwithin hmark

/-- A text that a `bearer` follows is apart from the mask if the text is. -/
theorem apart_append_bearer (hapart : Apart needle redactedMark) (hu : u <+: needle)
    (hword : IsBearer word) : Apart (u ++ word) redactedMark := by
  obtain ⟨hends, hstarts, hwithin⟩ := apart_bearer hword
  have hinside : word <:+: u ++ word := (List.suffix_append u word).isInfix
  refine ⟨fun tail hne htail hprefixed ↦ ?_, fun head hne hhead hsuffix ↦ ?_, fun haround ↦ ?_,
    fun hinfixed ↦ hwithin (hinside.trans hinfixed)⟩
  · rcases List.suffix_or_suffix_of_suffix htail (List.suffix_append u word) with hin | hover
    · exact hends tail hne hin hprefixed
    · exact hwithin (hover.isInfix.trans hprefixed.isInfix)
  · rcases prefix_append_cases hhead with hin | ⟨rest, rfl, hrest⟩
    · exact hapart.starts head hne (hin.trans hu) hsuffix
    · by_cases hlast : rest = []
      · subst hlast
        rw [List.append_nil] at hne hsuffix
        exact hapart.starts u hne hu hsuffix
      · exact hstarts rest hlast hrest ((List.suffix_append u rest).trans hsuffix)
  · rcases infix_append_cases haround with hin | ⟨tail, -, htail, hprefixed⟩
    · have hle := hin.length_le
      rw [hword.length_eq] at hle
      exact absurd hle (by decide)
    · rcases prefix_append_cases hprefixed with hin | ⟨rest, hmark, hrest⟩
      · exact hapart.around (hin.isInfix.trans (htail.isInfix.trans hu.isInfix))
      · by_cases hlast : rest = []
        · rw [hlast, List.append_nil] at hmark
          exact hapart.around (hmark ▸ htail.isInfix.trans hu.isInfix)
        · exact hstarts rest hlast hrest ⟨tail, hmark.symm⟩

end Bearer

/-! ## Both scrubs -/

section Scrubs

variable {text : List Char} {credentials : ProviderConnection}

theorem take_placed (n : Nat) (text : List Char) : (placed text).take n = placed (text.take n) := by
  have hfrom (place : Nat) : (placedFrom place text).take n = placedFrom place (text.take n) := by
    induction text generalizing place n with
    | nil => simp [placedFrom]
    | cons c text ih =>
      cases n with
      | zero => rfl
      | succ n => rw [placedFrom, List.take_succ_cons, List.take_succ_cons, placedFrom, ih]
  exact hfrom 0

theorem map_fst_maskAll (mask : List Char) (needles : List (List Char))
    (text : List (Placed Char)) : (maskAll mask needles text).map Prod.fst =
      needles.foldl (fun out needle ↦ (replacing needle mask).scan none 0 out)
        (text.map Prod.fst) := by
  induction needles generalizing text with
  | nil => rfl
  | cons needle needles ih =>
    rw [maskAll, List.foldl_cons, List.foldl_cons]
    refine (ih _).trans ?_
    congr 1
    exact (traces_replacing needle mask).scan none 0 text

/-- The places change nothing of the text that is relayed. -/
theorem map_fst_scrubPlaced (text : String) (credentials : ProviderConnection) :
    (scrubPlaced (placed text.toList) credentials).map Prod.fst =
      (scrub text credentials).toList := by
  rw [scrubPlaced, take_placed, traces_bearer.scan, map_fst_maskAll, map_fst_placed, List.foldl_map,
    scrub, String.toList_ofList]
  rfl

/-- A text of at least 8 bytes is not read in `Bearer `. -/
theorem not_infix_bearer {secret : String} (hlong : 8 ≤ secret.utf8ByteSize) :
    ¬ secret.toList <:+: "Bearer ".toList := by
  rintro ⟨before, after, heq⟩
  have hwhole : String.ofList before ++ secret ++ String.ofList after = "Bearer " := by
    rw [← String.toList_inj, String.toList_append, String.toList_append, String.toList_ofList,
      String.toList_ofList, heq]
  have hsize := congrArg String.utf8ByteSize hwhole
  rw [String.utf8ByteSize_append, String.utf8ByteSize_append] at hsize
  have hbearer : "Bearer ".utf8ByteSize = 7 := by decide
  omega

/-- A text without a `bearer` stays as it is. -/
theorem scan_bearer_of_absent {text : List (Placed Char)}
    (h : ∀ word, IsBearer word → ¬ word <:+: text.map Prod.fst) (prev : Option (Placed Char)) :
    bearerPlaced.scan prev 0 text = text := by
  refine Rule.scan_of_kept ?_ prev (Nat.zero_le _)
  intro tail htail prev new read hstep
  rw [bearerPlaced] at hstep
  split at hstep
  · next hword =>
    refine absurd ?_ (h _ hword)
    exact ((List.take_prefix 6 tail).isInfix.trans htail.isInfix).map Prod.fst
  · cases hstep

/-- A text without secrets and without a `bearer` stays as it is. -/
theorem scrubPlaced_of_absent
    (hnone : ∀ secret ∈ (secretsOf credentials).map String.toList, ¬ secret <:+: text.take 2000)
    (hbearer : ∀ word, IsBearer word → ¬ word <:+: text.take 2000) :
    scrubPlaced (placed text) credentials = placed (text.take 2000) := by
  rw [scrubPlaced, take_placed, maskAll_of_absent hnone, scan_bearer_of_absent]
  rwa [map_fst_placed]

/-- The scrub of a relayed text shows nothing of the credentials that the text can be relayed
with. -/
theorem conceals_scrub (h : Relayable ((secretsOf credentials).map String.toList) text) :
    Conceals ((secretsOf credentials).map String.toList) text
      (scrubPlaced (placed text) credentials) := by
  have hlong : ∀ secret ∈ (secretsOf credentials).map String.toList,
      ¬ secret <:+: "Bearer ".toList := by
    rw [List.forall_mem_map]
    intro secret hmem
    exact not_infix_bearer (of_decide_eq_true (List.mem_filter.mp hmem).2)
  have hne : ∀ secret ∈ (secretsOf credentials).map String.toList, secret ≠ [] := by
    rintro secret hmem rfl
    exact hlong [] hmem List.nil_infix
  have hmasked := conceals_maskAll hne h.separate
  constructor
  · intro secret hmem hinfixed
    -- the secret is apart from the mask, or nothing is written at all
    have hapart : Apart secret redactedMark ∨ ((∀ secret ∈ (secretsOf credentials).map String.toList,
        ¬ secret <:+: text.take 2000) ∧ ∀ word, IsBearer word → ¬ word <:+: text.take 2000) := by
      rcases h.separate.apart with hall | hnone
      · exact .inl (hall secret hmem)
      · rcases h.apart with hall | hbearer
        · exact .inl (hall secret hmem)
        · exact .inr ⟨hnone, hbearer⟩
    rcases hapart with hapart | ⟨hnone, hbearer⟩
    · rw [scrubPlaced, take_placed, traces_bearer.scan] at hinfixed
      rcases infix_of_infix_bearer hapart (hlong secret hmem) hinfixed with
        hread | ⟨u, v, word, hspells, hread⟩
      · exact hmasked.1 secret hmem hread
      · by_cases hsame : v <+: word
        · apply hmasked.1 secret hmem
          rw [hspells.eq]
          exact ((List.prefix_append_right_inj u).mpr hsame).isInfix.trans hread
        · have hu : u <+: secret := ⟨v, hspells.eq.symm⟩
          have hword : u ++ word ≠ [] := by simp [hspells.word.ne_nil]
          exact h.bearer secret hmem u v word hspells.eq hspells.ne hspells.own hspells.word hsame
            (infix_of_infix_maskAll hne h.separate (apart_append_bearer hapart hu hspells.word)
              hword hread)
    · rw [scrubPlaced_of_absent hnone hbearer, map_fst_placed] at hinfixed
      exact hnone secret hmem hinfixed
  · intro secret hmem a hoccurs place hle hlt c hcopied
    rw [scrubPlaced, take_placed] at hcopied
    have hbefore := copies_bearer.mem_of_mem_scan hcopied
    obtain ⟨hplace, -⟩ := List.getElem?_eq_some_iff.mp (mem_placed.mp (mem_of_mem_maskAll hbefore))
    rw [List.length_take] at hplace
    have hinside := h.cut secret hmem a hoccurs (by omega)
    have hcut : OccursAt secret (text.take 2000) a := by
      rw [OccursAt, List.drop_take]
      exact List.prefix_take_iff.mpr ⟨hoccurs, by omega⟩
    exact hmasked.2 secret hmem a hcut place hle hlt c hbefore

/-- An account with a token and a longer one that starts with it. -/
def twoTokens : ProviderConnection :=
  { ProviderConnection.unused "a" "xai" with
    accessToken := some "sk-12345", refreshToken := some "sk-12345678" }

/-- An account with one token. -/
def oneToken : ProviderConnection :=
  { ProviderConnection.unused "a" "xai" with accessToken := some "sk-12345678" }

/-- A text that is one secret. -/
theorem separate_self {mask secret : List Char} (hne : secret ≠ []) (hapart : Apart secret mask) :
    Separate mask [secret] secret := by
  have hplace {a : Nat} (h : OccursAt secret secret a) : a = 0 := by
    have hle := h.le_length hne
    have hpos := List.length_pos_of_ne_nil hne
    omega
  refine ⟨?_, List.pairwise_singleton _ _, .inl (by simpa using hapart)⟩
  rw [List.forall_mem_singleton]
  intro a b ha hb _ _
  rw [hplace ha, hplace hb]
  exact ⟨Nat.le_refl _, Nat.le_refl _⟩

/-- A token that is cut at the limit. -/
def cutText : List Char := List.replicate 1995 'x' ++ "sk-12345678".toList

end Scrubs

end NullRouter.Runtime
