import NullRouter.Base.Run
import NullRouter.Bespoke.Perplexity

/-!
# Perplexity's threads over a run

Requests of accounts and the ends of their streams, in any order: what the cache then holds, and
which thread a request continues. A finished exchange is remembered by the body that was sent
(`crates/execute/src/executor.rs:574`, `services/runtime-actix/src/pipeline.rs:1556–1566`), which has
no messages.
-/

namespace NullRouter.Bespoke.Perplexity

open NullRouter.Base NullRouter.Translate

/-! ## Runs -/

/-- A request whose stream has not ended: the account, the conversation asked about, and the body
sent. -/
structure Flight where
  account : String
  conversation : Conversation
  sentBody : Json

/-- A streamed exchange that was answered in a thread. -/
structure Exchange where
  account : String
  conversation : Conversation
  answer : String
  thread : String
  time : Nat
  deriving DecidableEq

/-- The conversation with the question and its answer: what a request that goes on has as its
history. -/
def Exchange.full (e : Exchange) : List (String × String) :=
  e.conversation.history ++ [("user", e.conversation.current), ("assistant", e.answer)]

/-- The process: its clock, the cache, the streams that have not ended, and the exchanges that were
answered in a thread, the last first. -/
structure Process where
  now : Nat := 0
  cache : Cache := ∅
  flights : List Flight := []
  exchanges : List Exchange := []

/-- What happens: an account sends a request, the stream at a place ends, or time passes. -/
inductive Event where
  | request (account : String) (body : Json) (ids : String × String)
  | finish (place : Nat) (thread answer : Option String)
  | pass (duration : Nat)

namespace Process

/-- The end of a stream: the thread is remembered where there is one and an answer,
`pipeline.rs:1556`. -/
def finish (p : Process) (flight : Flight) (thread answer : Option String) : Process :=
  match thread, answer with
  | some thread, some answer =>
    { p with
      cache := rememberThread p.cache p.now flight.sentBody thread answer
      exchanges :=
        if thread = "" then p.exchanges
        else ⟨flight.account, flight.conversation, answer, thread, p.now⟩ :: p.exchanges }
  | _, _ => p

variable (serde : SerdeJson)

/-- What a request sends, and the cache after it. -/
def sent (p : Process) (body : Json) (ids : String × String) : Json × Cache :=
  envelope serde p.cache p.now body ids

/-- An event in its turn. -/
def act (p : Process) : Event → Process
  | .request account body ids =>
    { p with
      cache := (p.sent serde body ids).2
      flights := p.flights ++ [⟨account, conversationOf body, (p.sent serde body ids).1⟩] }
  | .finish place thread answer =>
    match p.flights[place]? with
    | some flight => { p.finish flight thread answer with flights := p.flights.eraseIdx place }
    | none => p
  | .pass duration => { p with now := p.now + duration }

/-- The process after some events. -/
def after (events : List Event) : Process := events.foldl (act serde) {}

end Process

/-! ## Threads that are continued -/

/-- The thread that a body continues. -/
def continuedThread (sent : Json) : Option String :=
  (sent.get "params").bind (·.strField "last_backend_uuid")

/-- An exchange that a request of an account goes on: the last with its conversation, not too old
for the cache, and among the last that the cache has room for. -/
structure GoesOn (p : Process) (account : String) (history : List (String × String))
    (e : Exchange) : Prop where
  last : ∃ newer older, p.exchanges = newer ++ e :: older ∧
    ∀ other ∈ newer, ¬ (other.account = account ∧ other.full = history)
  account : e.account = account
  history : e.full = history
  fresh : p.now - e.time ≤ sessionMaxAge
  room : (p.exchanges.filter (e.time ≤ ·.time)).length ≤ sessionMaxEntries

/-- A request continues its own thread: it carries the thread of the exchange that it goes on, and
carries none but of an exchange of its account with its history. -/
def OwnThread (serde : SerdeJson) (p : Process) (account : String) (body : Json)
    (ids : String × String) : Prop :=
  (∀ e, GoesOn p account (conversationOf body).history e →
    continuedThread (p.sent serde body ids).1 = some e.thread) ∧
  ∀ thread, continuedThread (p.sent serde body ids).1 = some thread →
    ∃ e ∈ p.exchanges, e.account = account ∧ e.full = (conversationOf body).history ∧
      e.thread = thread

/-- The key under which an exchange is remembered: of its answer to an empty question. -/
def Exchange.keptKey (e : Exchange) : String := sessionKey [("user", ""), ("assistant", e.answer)]

/-- Of the exchanges not too old for the cache, those remembered under the key of the request's
history are just those of its account with that history. -/
def RightlyKept (p : Process) (account : String) (history : List (String × String)) : Prop :=
  ∀ e ∈ p.exchanges, p.now - e.time ≤ sessionMaxAge →
    (e.keptKey = sessionKey history ↔ e.account = account ∧ e.full = history)

/-! ## What is sent and remembered -/

private theorem conversationOf_payload (query mode preference : String)
    (followUp : Option String) (ids : String × String) :
    conversationOf (payload query mode preference followUp ids) = {} := by
  have hnone : arrayField (payload query mode preference followUp ids) "messages" = none := by
    simp [arrayField, payload, Json.get_object, List.lookup_cons]
  rw [conversationOf, hnone]
  rfl

private theorem continuedThread_payload (query mode preference : String)
    (followUp : Option String) (ids : String × String) :
    continuedThread (payload query mode preference followUp ids) = followUp := by
  cases followUp <;> simp [continuedThread, payload, Json.get_object, Json.strField,
    Json.asStr]

section Runs

variable {serde : SerdeJson} {p : Process}

/-- A request carries what the cache has for its history. -/
theorem continuedThread_sent (serde : SerdeJson) (p : Process) (body : Json)
    (ids : String × String) : continuedThread (p.sent serde body ids).1 =
      (sessionLookup p.cache p.now (conversationOf body).history).1 :=
  continuedThread_payload ..

/-- What an exchange leaves in the cache: its thread, under the key of its answer to an empty
question. -/
private theorem rememberThread_sent {flight : Flight} (hsent : conversationOf flight.sentBody = {})
    {thread : String} (hthread : thread ≠ "") (cache : Cache) (now : Nat) (answer : String) :
    rememberThread cache now flight.sentBody thread answer = evictOldest (cache.insert
      (Exchange.keptKey ⟨flight.account, flight.conversation, answer, thread, now⟩)
      ⟨thread, now⟩) := by
  rw [rememberThread, if_neg hthread, hsent, sessionStore, if_neg hthread]
  rfl

private theorem mem_evictOldest {cache : Cache} {key : String} {session : Session}
    (h : (evictOldest cache).lookup key = some session) : cache.lookup key = some session := by
  rw [evictOldest] at h
  split at h
  · split at h
    · next oldest _ =>
      by_cases hkey : key = oldest.1
      · rw [hkey, AList.lookup_erase] at h
        cases h
      · rwa [AList.lookup_erase_ne hkey] at h
    · exact h
  · exact h

/-- What holds of the cache in every run: each entry is of an exchange, and the last exchange under
a key has its entry, if it is not too old and among the last that there is room for. -/
structure Kept (p : Process) : Prop where
  flights : ∀ flight ∈ p.flights, conversationOf flight.sentBody = {}
  times : ∀ e ∈ p.exchanges, e.time ≤ p.now
  order : p.exchanges.Pairwise fun newer older ↦ older.time ≤ newer.time
  entries : ∀ key session, p.cache.lookup key = some session →
    ∃ e ∈ p.exchanges, e.keptKey = key ∧ session = ⟨e.thread, e.time⟩
  found : ∀ newer e older, p.exchanges = newer ++ e :: older →
    (∀ other ∈ newer, other.keptKey ≠ e.keptKey) → p.now - e.time ≤ sessionMaxAge →
    (p.exchanges.filter (e.time ≤ ·.time)).length ≤ sessionMaxEntries →
    p.cache.lookup e.keptKey = some ⟨e.thread, e.time⟩

private theorem Kept.request (h : Kept p) (account : String) (body : Json)
    (ids : String × String) : Kept (p.act serde (.request account body ids)) := by
  have hcache : (p.sent serde body ids).2 =
      (sessionLookup p.cache p.now (conversationOf body).history).2 := rfl
  have hlookup : ∀ key session, (p.sent serde body ids).2.lookup key = some session →
      p.cache.lookup key = some session := by
    intro key session hkey
    rw [hcache, sessionLookup] at hkey
    split at hkey
    · exact hkey
    · split at hkey
      · exact hkey
      · split at hkey
        · by_cases hsame : key = sessionKey (conversationOf body).history
          · rw [hsame, AList.lookup_erase] at hkey
            cases hkey
          · rwa [AList.lookup_erase_ne hsame] at hkey
        · exact hkey
  refine ⟨?_, h.times, h.order, ?_, ?_⟩
  · intro flight hflight
    rcases List.mem_append.mp hflight with hflight | hflight
    · exact h.flights flight hflight
    · obtain rfl := List.mem_singleton.mp hflight
      exact conversationOf_payload ..
  · intro key session hkey
    exact h.entries key session (hlookup key session hkey)
  · intro newer e older hsplit hnewer hfresh hroom
    have hfound := h.found newer e older hsplit hnewer hfresh hroom
    change (p.sent serde body ids).2.lookup e.keptKey = _
    rw [hcache, sessionLookup]
    split
    · exact hfound
    · split
      · exact hfound
      · next session hsession =>
        split
        · next hold =>
          by_cases hsame : e.keptKey = sessionKey (conversationOf body).history
          · -- The entry of an exchange that is fresh is not the one that is too old.
            rw [hsame, hsession] at hfound
            cases hfound
            exact absurd hfresh (Nat.not_le.mpr hold)
          · rw [AList.lookup_erase_ne hsame]
            exact hfound
        · exact hfound

private theorem Kept.pass (h : Kept p) (duration : Nat) : Kept (p.act serde (.pass duration)) := by
  refine ⟨h.flights, ?_, h.order, h.entries, ?_⟩
  · intro e he
    exact (h.times e he).trans (Nat.le_add_right ..)
  · intro newer e older hsplit hnewer hfresh hroom
    apply h.found newer e older hsplit hnewer _ hroom
    change p.now + duration - e.time ≤ sessionMaxAge at hfresh
    omega

private theorem length_entries_le {cache : Cache} {exchanges : List Exchange}
    (h : ∀ key ∈ cache.keys, ∃ e ∈ exchanges, e.keptKey = key) :
    cache.entries.length ≤ exchanges.length := by
  have hsub : cache.keys ⊆ exchanges.map Exchange.keptKey := by
    intro key hkey
    obtain ⟨e, he, rfl⟩ := h key hkey
    exact List.mem_map_of_mem he
  have hle := (List.subperm_of_subset cache.keys_nodup hsub).length_le
  rwa [List.length_map, AList.keys, List.keys, List.length_map] at hle

private theorem lookup_evictOldest {cache : Cache} {exchanges : List Exchange}
    (hentries : ∀ key session, cache.lookup key = some session →
      ∃ e ∈ exchanges, e.keptKey = key ∧ session = ⟨e.thread, e.time⟩)
    {e : Exchange} (h : cache.lookup e.keptKey = some ⟨e.thread, e.time⟩)
    (hroom : (exchanges.filter (e.time ≤ ·.time)).length ≤ sessionMaxEntries) :
    (evictOldest cache).lookup e.keptKey = some ⟨e.thread, e.time⟩ := by
  rw [evictOldest]
  split
  · next hfull =>
    split
    · next oldest holdest =>
      by_cases hsame : e.keptKey = oldest.1
      · -- Were it the oldest, all entries would be of exchanges no older, for which there is room.
        have hold : oldest.2 = ⟨e.thread, e.time⟩ := by
          have hmem := AList.mem_lookup_iff.mpr (List.argmin_mem holdest)
          rw [← hsame, h] at hmem
          exact (Option.some.inj hmem).symm
        have hle : cache.entries.length ≤ (exchanges.filter (e.time ≤ ·.time)).length := by
          apply length_entries_le
          intro key hkey
          obtain ⟨session, hsession⟩ := Option.isSome_iff_exists.mp
            (AList.lookup_isSome.mpr (AList.mem_keys.mpr hkey))
          obtain ⟨other, hother, hkept, hown⟩ := hentries key session hsession
          refine ⟨other, List.mem_filter.mpr ⟨hother, ?_⟩, hkept⟩
          have hmin := List.le_of_mem_argmin (AList.mem_lookup_iff.mp hsession) holdest
          rw [hold, hown] at hmin
          exact decide_eq_true hmin
        omega
      · rw [AList.lookup_erase_ne hsame]
        exact h
    · exact h
  · exact h

private theorem Kept.finish (h : Kept p) {flight : Flight}
    (hsent : conversationOf flight.sentBody = {}) (thread answer : Option String) :
    Kept (p.finish flight thread answer) := by
  unfold Process.finish
  split
  · next thread answer =>
    by_cases hthread : thread = ""
    · have hsame : rememberThread p.cache p.now flight.sentBody thread answer = p.cache := by
        rw [rememberThread, if_pos hthread]
      rw [hsame, if_pos hthread]
      exact h
    · rw [rememberThread_sent hsent hthread, if_neg hthread]
      generalize hnew : (⟨flight.account, flight.conversation, answer, thread, p.now⟩ : Exchange) =
        new
      have hsession : (⟨thread, p.now⟩ : Session) = ⟨new.thread, new.time⟩ := by
        rw [← hnew]
      rw [hsession]
      have hentries : ∀ key session,
          (p.cache.insert new.keptKey ⟨new.thread, new.time⟩).lookup key = some session →
          ∃ e ∈ new :: p.exchanges, e.keptKey = key ∧ session = ⟨e.thread, e.time⟩ := by
        intro key session hkey
        by_cases hsame : key = new.keptKey
        · rw [hsame, AList.lookup_insert] at hkey
          exact ⟨new, List.mem_cons_self, hsame.symm, (Option.some.inj hkey).symm⟩
        · rw [AList.lookup_insert_ne hsame] at hkey
          obtain ⟨e, he, hkept⟩ := h.entries key session hkey
          exact ⟨e, List.mem_cons_of_mem _ he, hkept⟩
      have htime : new.time = p.now := by rw [← hnew]
      refine ⟨h.flights, ?_, ?_, ?_, ?_⟩
      · intro e he
        rcases List.mem_cons.mp he with rfl | he
        · exact htime.le
        · exact h.times e he
      · refine List.pairwise_cons.mpr ⟨fun e he ↦ ?_, h.order⟩
        rw [htime]
        exact h.times e he
      · intro key session hkey
        exact hentries key session (mem_evictOldest hkey)
      · intro newer e older hsplit hnewer hfresh hroom
        refine lookup_evictOldest hentries ?_ hroom
        cases newer with
        | nil =>
          obtain ⟨rfl, -⟩ := List.cons_eq_cons.mp hsplit
          exact AList.lookup_insert _
        | cons first newer =>
          obtain ⟨rfl, hrest⟩ := List.cons_eq_cons.mp hsplit
          rw [AList.lookup_insert_ne (hnewer new List.mem_cons_self).symm]
          apply h.found newer e older hrest (fun other ho ↦ hnewer other (List.mem_cons_of_mem _ ho))
            hfresh
          refine le_trans ?_ hroom
          exact (List.Sublist.filter _ (List.sublist_cons_self ..)).length_le
  · exact h

/-- Every run keeps it. -/
theorem kept_after (serde : SerdeJson) (events : List Event) :
    Kept (Process.after serde events) := by
  have hrun : ∀ p, Kept p → Kept (events.foldl (Process.act serde) p) := by
    induction events with
    | nil => exact fun _ h ↦ h
    | cons event events ih =>
      intro p h
      apply ih
      cases event with
      | request account body ids => exact h.request account body ids
      | pass duration => exact h.pass duration
      | finish place thread answer =>
        cases hflight : p.flights[place]? with
        | none =>
          simp only [Process.act, hflight]
          exact h
        | some flight =>
          have hfinish := h.finish (h.flights flight (List.mem_of_getElem? hflight)) thread answer
          simp only [Process.act, hflight]
          refine ⟨?_, hfinish.times, hfinish.order, hfinish.entries, hfinish.found⟩
          intro other hother
          exact h.flights other (List.mem_of_mem_eraseIdx hother)
  exact hrun {} ⟨by simp, by simp, by simp, by simp, by simp⟩

end Runs

/-! ## Whether a request continues its own thread -/

/-- After any run, a request continues its own thread where the exchanges are rightly kept for it. -/
theorem ownThread_of_rightlyKept (serde : SerdeJson) (events : List Event) (account : String)
    (body : Json) (ids : String × String)
    (h : RightlyKept (Process.after serde events) account (conversationOf body).history) :
    OwnThread serde (Process.after serde events) account body ids := by
  have hkept := kept_after serde events
  rw [OwnThread, continuedThread_sent]
  constructor
  · intro e he
    obtain ⟨newer, older, hsplit, hnewer⟩ := he.last
    have hmem : e ∈ (Process.after serde events).exchanges := by simp [hsplit]
    have hkey := (h e hmem he.fresh).mpr ⟨he.account, he.history⟩
    -- A later exchange under the same key would be of the same account and history.
    have hlast : ∀ other ∈ newer, other.keptKey ≠ e.keptKey := by
      intro other hother hsame
      have hage : e.time ≤ other.time := by
        have horder := hkept.order
        rw [hsplit, List.pairwise_append] at horder
        exact horder.2.2 other hother e List.mem_cons_self
      have hfresh : (Process.after serde events).now - other.time ≤ sessionMaxAge :=
        (Nat.sub_le_sub_left hage _).trans he.fresh
      apply hnewer other hother
      apply (h other (by simp [hsplit, hother]) hfresh).mp
      rw [hsame, hkey]
    have hfound := hkept.found newer e older hsplit hlast he.fresh he.room
    rw [hkey] at hfound
    have hne : (conversationOf body).history ≠ [] := by
      rw [← he.history, Exchange.full]
      simp
    rw [sessionLookup, if_neg hne, hfound]
    simp only
    rw [if_neg (Nat.not_lt.mpr he.fresh)]
  · intro thread hthread
    rw [sessionLookup] at hthread
    split at hthread
    · cases hthread
    · split at hthread
      · cases hthread
      · next session hsession =>
        split at hthread
        · cases hthread
        · next hfresh =>
          obtain ⟨e, he, hkey, rfl⟩ := hkept.entries _ _ hsession
          obtain ⟨haccount, hfull⟩ := (h e he (Nat.not_lt.mp hfresh)).mp hkey
          exact ⟨e, he, haccount, hfull, Option.some.inj hthread⟩

/-- A message of a role. -/
def message (role text : String) : Json := .obj [("content", .str text), ("role", .str role)]

/-- A body of messages. -/
def bodyOf (messages : List Json) : Json := .obj [("messages", .arr messages)]

/-- A question and its answer in a thread. -/
def asked (account question answer thread : String) : List Event :=
  [.request account (bodyOf [message "user" question]) ("", ""),
    .finish 0 (some thread) (some answer)]

private def exampleSerde : SerdeJson := ⟨fun _ ↦ none, fun _ ↦ "", fun _ ↦ ""⟩

/-- A question that the hash passes over is continued in its thread. -/
theorem ownThread_of_passedOver : OwnThread exampleSerde
    (Process.after exampleSerde (asked "a" "xkiaagub" "yes" "u")) "a"
    (bodyOf [message "user" "xkiaagub", message "assistant" "yes", message "user" "more"])
    ("", "") := by
  apply ownThread_of_rightlyKept
  have hexchanges : (Process.after exampleSerde (asked "a" "xkiaagub" "yes" "u")).exchanges =
      [⟨"a", ⟨"", [], "xkiaagub"⟩, "yes", "u", 0⟩] := by decide +kernel
  intro e he _
  rw [hexchanges, List.mem_singleton] at he
  subst he
  decide +kernel

/-- A request that goes on its account's exchange is sent without its thread; and another account,
whose history reads the same, is sent with it. -/
theorem followUp_forgotten :
    ¬ OwnThread exampleSerde (Process.after exampleSerde (asked "a" "Hi" "Hello" "u")) "a"
      (bodyOf [message "user" "Hi", message "assistant" "Hello", message "user" "more"])
      ("", "") ∧
    continuedThread ((Process.after exampleSerde (asked "a" "Hi" "Hello" "u")).sent exampleSerde
      (bodyOf [message "user" "\nassistant:Hello", message "user" "more"]) ("", "")).1 =
        some "u" := by
  constructor
  · intro h
    have hexchanges : (Process.after exampleSerde (asked "a" "Hi" "Hello" "u")).exchanges =
        [⟨"a", ⟨"", [], "Hi"⟩, "Hello", "u", 0⟩] := by decide +kernel
    have hcontinued := h.1 ⟨"a", ⟨"", [], "Hi"⟩, "Hello", "u", 0⟩
      ⟨⟨[], [], hexchanges, by simp⟩, rfl, by decide +kernel, by decide +kernel,
        by rw [hexchanges]; decide⟩
    exact absurd hcontinued (by decide +kernel)
  · decide +kernel

end NullRouter.Bespoke.Perplexity
