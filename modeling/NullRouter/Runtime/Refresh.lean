import Std.Data.ExtTreeMap
import Mathlib.Data.List.Basic
import Mathlib.Data.List.Induction

/-!
# Spending a refresh token

`Executor::refresh_credentials` (`crates/execute/src/executor.rs:344`) over its cache of results
(`crates/execute/src/refresh.rs:458–515`), when any number of requests run side by side. Its
three parts, the look at the cache, the exchange and the storing of the result, are steps of
their own. Which providers can refresh, and what a token endpoint answers, are parameters.
-/

namespace NullRouter.Runtime

/-- `Refreshed`, `refresh.rs:54`. -/
structure Refreshed where
  accessToken : String
  refreshToken : String
  expiresAt : Option String
  idToken : Option String
  deriving DecidableEq

/-- `RefreshError`, `refresh.rs:66`. -/
inductive RefreshError where
  | unsupported
  | notConfigured
  | rejected (message : String)
  | transient (message : String)
  deriving DecidableEq

/-- `RESULT_TTL`, `refresh.rs:36`, in nanoseconds. -/
def resultTtl : Nat := 10 * 1000 * 1000 * 1000

/-- `CacheEntry`, `refresh.rs:469`: an outcome, and when it landed. -/
structure CacheEntry where
  landed : Nat
  result : Except RefreshError Refreshed

namespace CacheEntry

/-- Whether an entry may still be used at an instant. -/
def isFresh (e : CacheEntry) (now : Nat) : Bool := now - e.landed ≤ resultTtl

end CacheEntry

/-- `RefreshCache`, `refresh.rs:464`. -/
abbrev RefreshCache := Std.ExtTreeMap String CacheEntry

namespace RefreshCache

/-- `RefreshCache::key`, `refresh.rs:515`. -/
def key (provider refreshToken : String) : String := provider ++ ":" ++ refreshToken

/-- `RefreshCache::get`, `refresh.rs:477`; an entry that is too old is removed. -/
def get (cache : RefreshCache) (now : Nat) (provider refreshToken : String) :
    RefreshCache × Option (Except RefreshError Refreshed) :=
  match cache[key provider refreshToken]? with
  | some entry =>
    if entry.isFresh now then (cache, some entry.result)
    else (cache.erase (key provider refreshToken), none)
  | none => (cache, none)

/-- `RefreshCache::put`, `refresh.rs:498`; all entries that are too old are removed. -/
def put (cache : RefreshCache) (now : Nat) (provider refreshToken : String)
    (result : Except RefreshError Refreshed) : RefreshCache :=
  (cache.filter fun _ entry ↦ entry.isFresh now).insert (key provider refreshToken) ⟨now, result⟩

private theorem split_at_colon {x x' y y' : List Char} (hx : ':' ∉ x) (hx' : ':' ∉ x')
    (h : x ++ ':' :: y = x' ++ ':' :: y') : x = x' ∧ y = y' := by
  induction x generalizing x' with
  | nil =>
    cases x' with
    | nil => simpa using h
    | cons c x' =>
      obtain ⟨rfl, -⟩ := List.cons.inj h
      exact absurd List.mem_cons_self hx'
  | cons c x ih =>
    cases x' with
    | nil =>
      obtain ⟨rfl, -⟩ := List.cons.inj h
      exact absurd List.mem_cons_self hx
    | cons c' x' =>
      obtain ⟨rfl, htail⟩ := List.cons.inj h
      rw [List.mem_cons, not_or] at hx hx'
      obtain ⟨rfl, rfl⟩ := ih hx.2 hx'.2 htail
      exact ⟨rfl, rfl⟩

/-- Keys of providers without a colon in their names are those of one provider and token. -/
theorem key_inj {provider provider' refreshToken refreshToken' : String}
    (h : ':' ∉ provider.toList) (h' : ':' ∉ provider'.toList)
    (hkey : key provider refreshToken = key provider' refreshToken') :
    provider = provider' ∧ refreshToken = refreshToken' := by
  have hlist := congrArg String.toList hkey
  simp only [key, String.toList_append] at hlist
  have hcolon : ":".toList = [':'] := rfl
  rw [hcolon, List.append_assoc, List.append_assoc, List.singleton_append,
    List.singleton_append] at hlist
  obtain ⟨hprovider, htoken⟩ := split_at_colon h h' hlist
  exact ⟨String.toList_inj.mp hprovider, String.toList_inj.mp htoken⟩

/-- A look at the cache finds the entry of the key while it is fresh. -/
theorem get_snd_eq_some_iff {cache : RefreshCache} {now : Nat} {provider refreshToken : String}
    {result : Except RefreshError Refreshed} :
    (cache.get now provider refreshToken).2 = some result ↔
      ∃ entry, cache[key provider refreshToken]? = some entry ∧ entry.isFresh now = true ∧
        entry.result = result := by
  unfold get
  cases hentry : cache[key provider refreshToken]? with
  | none => simp
  | some entry => by_cases hfresh : entry.isFresh now <;> simp [hfresh]

/-- A look at the cache removes no fresh entry and adds none. -/
theorem getElem?_get (cache : RefreshCache) (now : Nat) (provider refreshToken k : String) :
    (cache.get now provider refreshToken).1[k]? = cache[k]? ∨
      (cache.get now provider refreshToken).1[k]? = none ∧
        ∀ entry, cache[k]? = some entry → entry.isFresh now = false := by
  unfold get
  cases hentry : cache[key provider refreshToken]? with
  | none => exact .inl rfl
  | some entry =>
    by_cases hfresh : entry.isFresh now
    · simp [hfresh]
    · simp only [hfresh]
      by_cases hk : key provider refreshToken = k
      · subst hk
        right
        simp [hentry, hfresh]
      · left
        simp [Std.ExtTreeMap.getElem?_erase, hk]

/-- A result stored is the entry of its key; of the other entries the fresh ones stay. -/
theorem getElem?_put (cache : RefreshCache) (now : Nat) (provider refreshToken : String)
    (result : Except RefreshError Refreshed) (k : String) :
    (cache.put now provider refreshToken result)[k]? =
      if k = key provider refreshToken then some ⟨now, result⟩
      else cache[k]?.filter (·.isFresh now) := by
  unfold put
  rw [Std.ExtTreeMap.getElem?_insert, Std.ExtTreeMap.getElem?_filter']
  by_cases hk : k = key provider refreshToken
  · simp [hk]
  · simp [hk, Ne.symm hk]

end RefreshCache

/-- A grant of a refresh token: when it was sent, what `perform_refresh` made of the endpoint's
answer, and when the result was stored. -/
structure Grant where
  provider : String
  refreshToken : String
  sent : Nat
  answer : Option (Except RefreshError Refreshed)
  landed : Option Nat

namespace Grant

/-- Whether a grant carries the token. -/
def Carries (g : Grant) (provider refreshToken : String) : Prop :=
  g.provider = provider ∧ g.refreshToken = refreshToken

/-- Whether a grant's result was stored, and could no longer be used, when another was sent. -/
def IsOverBefore (g h : Grant) : Prop :=
  ∃ landed, g.landed = some landed ∧ landed + resultTtl < h.sent

/-- A grant at a later state of the run: what was known of it before still holds. -/
structure Follows (g' g : Grant) : Prop where
  provider : g'.provider = g.provider
  refreshToken : g'.refreshToken = g.refreshToken
  sent : g'.sent = g.sent
  answer : ∀ result, g.answer = some result → g'.answer = some result
  landed : ∀ landed, g.landed = some landed → g'.landed = some landed

@[refl]
theorem Follows.refl (g : Grant) : g.Follows g := ⟨rfl, rfl, rfl, fun _ h ↦ h, fun _ h ↦ h⟩

end Grant

/-- A result that a request took from the cache. -/
structure Reuse where
  provider : String
  refreshToken : String
  taken : Nat
  result : Except RefreshError Refreshed

/-- The requests that refresh their credentials: the clock, the cache they share, the grants that
they sent, in order, and the results that they reused. -/
structure Refreshing where
  now : Nat
  cache : RefreshCache
  grants : List Grant
  reused : List Reuse

/-- A step of some request, or of the clock. -/
inductive RefreshEvent where
  | tick (elapsed : Nat)
  | ask (provider refreshToken : String)
  | answer (grant : Nat) (result : Except RefreshError Refreshed)
  | land (grant : Nat)

namespace Refreshing

/-- No request has come yet. -/
def start (now : Nat) : Refreshing := ⟨now, ∅, [], []⟩

/-- The part of `refresh_credentials` up to its exchange, `executor.rs:350–358`. -/
def ask (supportsRefresh : String → Bool) (provider refreshToken : String) (s : Refreshing) :
    Refreshing :=
  if supportsRefresh provider then
    let found := s.cache.get s.now provider refreshToken
    match found.2 with
    | some result =>
      { s with cache := found.1, reused := s.reused ++ [⟨provider, refreshToken, s.now, result⟩] }
    | none =>
      { s with cache := found.1, grants := s.grants ++ [⟨provider, refreshToken, s.now, none, none⟩] }
  else s

/-- The exchange of a grant is over, `executor.rs:360`. -/
def answer (i : Nat) (result : Except RefreshError Refreshed) (s : Refreshing) : Refreshing :=
  match s.grants[i]? with
  | some ⟨provider, refreshToken, sent, none, landed⟩ =>
    { s with grants := s.grants.set i ⟨provider, refreshToken, sent, some result, landed⟩ }
  | _ => s

/-- The result of a grant is stored, `executor.rs:361`. -/
def land (i : Nat) (s : Refreshing) : Refreshing :=
  match s.grants[i]? with
  | some ⟨provider, refreshToken, sent, some result, none⟩ =>
    { s with
      cache := s.cache.put s.now provider refreshToken result
      grants := s.grants.set i ⟨provider, refreshToken, sent, some result, some s.now⟩ }
  | _ => s

/-- One step; a grant is answered once and stored once. -/
def step (supportsRefresh : String → Bool) (s : Refreshing) : RefreshEvent → Refreshing
  | .tick elapsed => { s with now := s.now + elapsed }
  | .ask provider refreshToken => s.ask supportsRefresh provider refreshToken
  | .answer i result => s.answer i result
  | .land i => s.land i

/-- The steps of a run in their order. -/
def run (supportsRefresh : String → Bool) (s : Refreshing) (events : List RefreshEvent) :
    Refreshing :=
  events.foldl (step supportsRefresh) s

/-- A refresh token is spent once: of any two of its grants, the result of the first was stored
and out of date before the second was sent, and a request that sends no grant has the result of
one, within its lifetime. -/
structure SpentOnce (s : Refreshing) (provider refreshToken : String) : Prop where
  once : ∀ (i j : Nat) (g h : Grant), i < j → s.grants[i]? = some g → s.grants[j]? = some h →
    g.Carries provider refreshToken → h.Carries provider refreshToken → g.IsOverBefore h
  reuses : ∀ r ∈ s.reused, r.provider = provider → r.refreshToken = refreshToken →
    ∃ g ∈ s.grants, g.Carries provider refreshToken ∧ g.answer = some r.result ∧
      ∃ landed, g.landed = some landed ∧ landed ≤ r.taken ∧ r.taken ≤ landed + resultTtl

/-- A grant of the token was sent, and its result is not stored yet. -/
def Pending (s : Refreshing) (provider refreshToken : String) : Prop :=
  ∃ g ∈ s.grants, g.Carries provider refreshToken ∧ g.landed = none

/-- What holds in every state of a run: times are in order, and the cache has the entries that
grants stored, the fresh ones for certain. -/
structure Ordered (supportsRefresh : String → Bool) (s : Refreshing) : Prop where
  sent : ∀ g ∈ s.grants, supportsRefresh g.provider = true ∧ g.sent ≤ s.now
  landed : ∀ g ∈ s.grants, ∀ landed, g.landed = some landed → landed ≤ s.now
  entry : ∀ k entry, s.cache[k]? = some entry → ∃ g ∈ s.grants,
    RefreshCache.key g.provider g.refreshToken = k ∧ g.answer = some entry.result ∧
      g.landed = some entry.landed
  cached : ∀ g ∈ s.grants, ∀ landed, g.landed = some landed → s.now ≤ landed + resultTtl →
    ∃ entry, s.cache[RefreshCache.key g.provider g.refreshToken]? = some entry ∧
      landed ≤ entry.landed

variable {supportsRefresh : String → Bool} {s : Refreshing} {event : RefreshEvent}

/-- What a step does: it leaves all but the clock, a look at the cache hits or sends a grant, or a
grant is answered or lands. -/
inductive Change (supportsRefresh : String → Bool) (s : Refreshing) :
    RefreshEvent → Refreshing → Prop where
  | idle {event : RefreshEvent} {now : Nat} (h : s.now ≤ now) :
      Change supportsRefresh s event { s with now := now }
  | hit {provider refreshToken : String} {result : Except RefreshError Refreshed}
      (hsupports : supportsRefresh provider = true)
      (hfound : (s.cache.get s.now provider refreshToken).2 = some result) :
      Change supportsRefresh s (.ask provider refreshToken)
        { s with
          cache := (s.cache.get s.now provider refreshToken).1
          reused := s.reused ++ [⟨provider, refreshToken, s.now, result⟩] }
  | miss {provider refreshToken : String} (hsupports : supportsRefresh provider = true)
      (hmiss : (s.cache.get s.now provider refreshToken).2 = none) :
      Change supportsRefresh s (.ask provider refreshToken)
        { s with
          cache := (s.cache.get s.now provider refreshToken).1
          grants := s.grants ++ [⟨provider, refreshToken, s.now, none, none⟩] }
  | answer {i sent : Nat} {provider refreshToken : String} {landed : Option Nat}
      {result : Except RefreshError Refreshed}
      (hget : s.grants[i]? = some ⟨provider, refreshToken, sent, none, landed⟩) :
      Change supportsRefresh s (.answer i result)
        { s with grants := s.grants.set i ⟨provider, refreshToken, sent, some result, landed⟩ }
  | land {i sent : Nat} {provider refreshToken : String} {result : Except RefreshError Refreshed}
      (hget : s.grants[i]? = some ⟨provider, refreshToken, sent, some result, none⟩) :
      Change supportsRefresh s (.land i)
        { s with
          cache := s.cache.put s.now provider refreshToken result
          grants := s.grants.set i ⟨provider, refreshToken, sent, some result, some s.now⟩ }

variable {s' : Refreshing}

private theorem change_step (s : Refreshing) (event : RefreshEvent) :
    s.Change supportsRefresh event (s.step supportsRefresh event) := by
  cases event with
  | tick elapsed => exact .idle (Nat.le_add_right _ _)
  | ask provider refreshToken =>
    simp only [step, ask]
    split
    · next hsupports =>
      cases hget : (s.cache.get s.now provider refreshToken).2 with
      | none => exact .miss hsupports hget
      | some result => exact .hit hsupports hget
    · exact .idle (Nat.le_refl _)
  | answer i result =>
    simp only [step, answer]
    split
    · next hget => exact .answer hget
    · exact .idle (Nat.le_refl _)
  | land i =>
    simp only [step, land]
    split
    · next hget => exact .land hget
    · exact .idle (Nat.le_refl _)

private theorem follows_set {grants : List Grant} {i k : Nat} {g h h' : Grant}
    (hget : grants[i]? = some g) (hset : grants[k]? = some h) (hfollows : h'.Follows h) :
    ∃ g', (grants.set k h')[i]? = some g' ∧ g'.Follows g := by
  by_cases hk : k = i
  · subst hk
    obtain rfl := Option.some.inj (hget.symm.trans hset)
    exact ⟨h', List.getElem?_set_self (List.getElem?_eq_some_iff.mp hget).1, hfollows⟩
  · exact ⟨g, by rw [List.getElem?_set_ne hk, hget], .refl g⟩

private theorem follows_step {i : Nat} {g : Grant} (hc : s.Change supportsRefresh event s')
    (h : s.grants[i]? = some g) : ∃ g', s'.grants[i]? = some g' ∧ g'.Follows g := by
  cases hc with
  | idle _ | hit _ _ => exact ⟨g, h, .refl g⟩
  | miss _ _ =>
    refine ⟨g, ?_, .refl g⟩
    rw [List.getElem?_append_left (List.getElem?_eq_some_iff.mp h).1, h]
  | answer hget => exact follows_set h hget ⟨rfl, rfl, rfl, nofun, fun _ h' ↦ h'⟩
  | land hget => exact follows_set h hget ⟨rfl, rfl, rfl, fun _ h' ↦ h', nofun⟩

/-- Every grant was there before, and if it has just landed its entry is in the cache, or is the
one that a look at the cache has sent. -/
private theorem of_step {i : Nat} {g' : Grant} (hc : s.Change supportsRefresh event s')
    (h : s'.grants[i]? = some g') :
    (∃ g, s.grants[i]? = some g ∧ g'.Follows g ∧ (g'.landed = g.landed ∨
      g'.landed = some s.now ∧ ∃ result, s'.cache[
        RefreshCache.key g'.provider g'.refreshToken]? = some ⟨s.now, result⟩)) ∨
    ∃ provider refreshToken, event = .ask provider refreshToken ∧
      supportsRefresh provider = true ∧ (s.cache.get s.now provider refreshToken).2 = none ∧
      i = s.grants.length ∧ g' = ⟨provider, refreshToken, s.now, none, none⟩ := by
  have hstay {P : Prop} (h : s.grants[i]? = some g') : ∃ g, s.grants[i]? = some g ∧
      g'.Follows g ∧ (g'.landed = g.landed ∨ P) := ⟨g', h, .refl g', .inl rfl⟩
  cases hc with
  | idle _ | hit _ _ => exact .inl (hstay h)
  | miss hsupports hmiss =>
    by_cases hlt : i < s.grants.length
    · rw [List.getElem?_append_left hlt] at h
      exact .inl (hstay h)
    · rw [List.getElem?_append_right (by omega), List.getElem?_singleton] at h
      split at h
      · exact .inr ⟨_, _, rfl, hsupports, hmiss, by omega, (Option.some.inj h).symm⟩
      · cases h
  | @answer k _ _ _ _ _ hget =>
    by_cases hk : k = i
    · subst hk
      rw [List.getElem?_set_self (List.getElem?_eq_some_iff.mp hget).1] at h
      obtain rfl := Option.some.inj h
      exact .inl ⟨_, hget, ⟨rfl, rfl, rfl, nofun, fun _ h' ↦ h'⟩, .inl rfl⟩
    · rw [List.getElem?_set_ne hk] at h
      exact .inl (hstay h)
  | @land k _ _ _ result hget =>
    by_cases hk : k = i
    · subst hk
      rw [List.getElem?_set_self (List.getElem?_eq_some_iff.mp hget).1] at h
      obtain rfl := Option.some.inj h
      refine .inl ⟨_, hget, ⟨rfl, rfl, rfl, fun _ h' ↦ h', nofun⟩, .inr ⟨rfl, result, ?_⟩⟩
      simp only [RefreshCache.getElem?_put, if_pos]
    · rw [List.getElem?_set_ne hk] at h
      exact .inl (hstay h)

private theorem mem_step {g : Grant} (hc : s.Change supportsRefresh event s')
    (h : g ∈ s.grants) : ∃ g' ∈ s'.grants, g'.Follows g := by
  obtain ⟨i, hi⟩ := List.mem_iff_getElem?.mp h
  obtain ⟨g', hget, hfollows⟩ := follows_step hc hi
  exact ⟨g', List.mem_of_getElem? hget, hfollows⟩

private theorem now_le_step (hc : s.Change supportsRefresh event s') : s.now ≤ s'.now := by
  cases hc with
  | idle h => exact h
  | _ => exact Nat.le_refl _

private theorem cache_step {k : String} {entry : CacheEntry}
    (hc : s.Change supportsRefresh event s') (h : s.cache[k]? = some entry)
    (hfresh : entry.isFresh s.now = true) (hpast : entry.landed ≤ s.now) :
    ∃ entry', s'.cache[k]? = some entry' ∧ entry.landed ≤ entry'.landed := by
  have hget (provider refreshToken : String) :
      (s.cache.get s.now provider refreshToken).1[k]? = some entry := by
    rcases RefreshCache.getElem?_get s.cache s.now provider refreshToken k with heq | ⟨-, hold⟩
    · rw [heq, h]
    · rw [hold entry h] at hfresh
      cases hfresh
  cases hc with
  | idle _ | answer _ => exact ⟨entry, h, Nat.le_refl _⟩
  | hit _ _ | miss _ _ => exact ⟨entry, hget _ _, Nat.le_refl _⟩
  | @land _ _ provider refreshToken result _ =>
    simp only [RefreshCache.getElem?_put]
    by_cases hk : k = RefreshCache.key provider refreshToken
    · exact ⟨_, if_pos hk, hpast⟩
    · refine ⟨entry, ?_, Nat.le_refl _⟩
      rw [if_neg hk, h, Option.filter_some, if_pos hfresh]

private theorem cache_of_step {k : String} {entry : CacheEntry}
    (hc : s.Change supportsRefresh event s') (h : s'.cache[k]? = some entry) :
    s.cache[k]? = some entry ∨ ∃ g ∈ s'.grants,
      RefreshCache.key g.provider g.refreshToken = k ∧ g.answer = some entry.result ∧
        g.landed = some entry.landed := by
  have hget {provider refreshToken : String}
      (h : (s.cache.get s.now provider refreshToken).1[k]? = some entry) :
      s.cache[k]? = some entry := by
    rcases RefreshCache.getElem?_get s.cache s.now provider refreshToken k with heq | ⟨hnone, -⟩
    · rwa [heq] at h
    · rw [hnone] at h
      cases h
  cases hc with
  | idle _ | answer _ => exact .inl h
  | hit _ _ | miss _ _ => exact .inl (hget h)
  | @land i sent provider refreshToken result hgrant =>
    simp only [RefreshCache.getElem?_put] at h
    by_cases hk : k = RefreshCache.key provider refreshToken
    · rw [if_pos hk] at h
      obtain rfl := Option.some.inj h
      have hmem := List.mem_set (List.getElem?_eq_some_iff.mp hgrant).1
        (⟨provider, refreshToken, sent, some result, some s.now⟩ : Grant)
      exact .inr ⟨_, hmem, hk.symm, rfl, rfl⟩
    · rw [if_neg hk] at h
      exact .inl (Option.filter_eq_some_iff.mp h).1

private theorem isFresh_iff {entry : CacheEntry} {now : Nat} :
    entry.isFresh now = true ↔ now ≤ entry.landed + resultTtl := by
  rw [CacheEntry.isFresh, decide_eq_true_iff]
  omega

private theorem ordered_start (now : Nat) : (start now).Ordered supportsRefresh := by
  constructor
  · nofun
  · nofun
  · intro k entry h
    simp [start] at h
  · nofun

private theorem ordered_step (hs : s.Ordered supportsRefresh)
    (hc : s.Change supportsRefresh event s') : s'.Ordered supportsRefresh := by
  have hnow := now_le_step hc
  constructor
  · intro g' hg'
    obtain ⟨i, hi⟩ := List.mem_iff_getElem?.mp hg'
    rcases of_step hc hi with ⟨g, hg, hfollows, -⟩ | ⟨_, _, -, hsupports, -, -, rfl⟩
    · have hsent := hs.sent g (List.mem_of_getElem? hg)
      rw [hfollows.provider, hfollows.sent]
      exact ⟨hsent.1, Nat.le_trans hsent.2 hnow⟩
    · exact ⟨hsupports, hnow⟩
  · intro g' hg' landed hlanded
    obtain ⟨i, hi⟩ := List.mem_iff_getElem?.mp hg'
    rcases of_step hc hi with ⟨g, hg, -, hsame | ⟨hnew, -⟩⟩ | ⟨_, _, -, -, -, -, rfl⟩
    · have hle := hs.landed g (List.mem_of_getElem? hg) landed (hsame ▸ hlanded)
      omega
    · obtain rfl := Option.some.inj (hnew.symm.trans hlanded)
      exact hnow
    · cases hlanded
  · intro k entry h
    rcases cache_of_step hc h with hold | hnew
    · obtain ⟨g, hg, hkey, hanswer, hlanded⟩ := hs.entry k entry hold
      obtain ⟨g', hg', hfollows⟩ := mem_step hc hg
      refine ⟨g', hg', ?_, hfollows.answer _ hanswer, hfollows.landed _ hlanded⟩
      rw [hfollows.provider, hfollows.refreshToken, hkey]
    · exact hnew
  · intro g' hg' landed hlanded hfresh
    obtain ⟨i, hi⟩ := List.mem_iff_getElem?.mp hg'
    rcases of_step hc hi with ⟨g, hg, hfollows, hsame | ⟨hnew, result, hcache⟩⟩ |
      ⟨_, _, -, -, -, -, rfl⟩
    · have hg := List.mem_of_getElem? hg
      rw [hsame] at hlanded
      obtain ⟨entry, hentry, hle⟩ := hs.cached g hg landed hlanded (by omega)
      obtain ⟨owner, howner, -, -, hpast⟩ := hs.entry _ entry hentry
      have hpast := hs.landed owner howner _ hpast
      have hfresh : entry.isFresh s.now = true := isFresh_iff.mpr (by omega)
      obtain ⟨entry', hentry', hlater⟩ := cache_step hc hentry hfresh hpast
      rw [hfollows.provider, hfollows.refreshToken]
      exact ⟨entry', hentry', Nat.le_trans hle hlater⟩
    · obtain rfl := Option.some.inj (hnew.symm.trans hlanded)
      exact ⟨_, hcache, Nat.le_refl _⟩
    · cases hlanded

variable {provider refreshToken : String}

private theorem reuses_step
    (hcolon : ∀ provider, supportsRefresh provider = true → ':' ∉ provider.toList)
    (hs : s.Ordered supportsRefresh)
    (hreuses : ∀ r ∈ s.reused, ∃ g ∈ s.grants, g.Carries r.provider r.refreshToken ∧
      g.answer = some r.result ∧ ∃ landed, g.landed = some landed ∧ landed ≤ r.taken ∧
        r.taken ≤ landed + resultTtl) (hc : s.Change supportsRefresh event s') :
    ∀ r ∈ s'.reused, ∃ g ∈ s'.grants, g.Carries r.provider r.refreshToken ∧
      g.answer = some r.result ∧ ∃ landed, g.landed = some landed ∧ landed ≤ r.taken ∧
        r.taken ≤ landed + resultTtl := by
  intro r hr
  by_cases hold : r ∈ s.reused
  · obtain ⟨g, hg, hcarries, hanswer, landed, hlanded, htimes⟩ := hreuses r hold
    obtain ⟨g', hg', hfollows⟩ := mem_step hc hg
    refine ⟨g', hg', ?_, hfollows.answer _ hanswer, landed, hfollows.landed _ hlanded, htimes⟩
    rwa [Grant.Carries, hfollows.provider, hfollows.refreshToken]
  · cases hc with
    | idle _ | miss _ _ | answer _ | land _ => exact absurd hr hold
    | hit hsupports hfound =>
      obtain rfl := List.mem_singleton.mp ((List.mem_append.mp hr).resolve_left hold)
      -- A hit: its entry is that of a grant, and of no other token.
      obtain ⟨entry, hentry, hfresh, rfl⟩ := RefreshCache.get_snd_eq_some_iff.mp hfound
      obtain ⟨g, hg, hkey, hanswer, hlanded⟩ := hs.entry _ entry hentry
      obtain ⟨hprovider, htoken⟩ :=
        RefreshCache.key_inj (hcolon _ (hs.sent g hg).1) (hcolon _ hsupports) hkey
      exact ⟨g, hg, ⟨hprovider, htoken⟩, hanswer, entry.landed, hlanded,
        hs.landed g hg _ hlanded, isFresh_iff.mp hfresh⟩

private theorem miss_isOver (hs : s.Ordered supportsRefresh)
    (hmiss : (s.cache.get s.now provider refreshToken).2 = none) {g : Grant} (hg : g ∈ s.grants)
    (hcarries : g.Carries provider refreshToken) {landed : Nat} (hlanded : g.landed = some landed) :
    landed + resultTtl < s.now := by
  by_contra hle
  obtain ⟨entry, hentry, hlater⟩ := hs.cached g hg landed hlanded (by omega)
  rw [hcarries.1, hcarries.2] at hentry
  have hfresh : entry.isFresh s.now = true := isFresh_iff.mpr (by omega)
  have hhit := RefreshCache.get_snd_eq_some_iff.mpr ⟨entry, hentry, hfresh, rfl⟩
  rw [hmiss] at hhit
  cases hhit

/-- A step keeps the grants of a token apart, unless it asks for the token while a grant of it
is pending. -/
private theorem once_step (hs : s.Ordered supportsRefresh)
    (honce : ∀ (i j : Nat) (g h : Grant), i < j → s.grants[i]? = some g →
      s.grants[j]? = some h → g.Carries provider refreshToken →
      h.Carries provider refreshToken → g.IsOverBefore h)
    (hok : event = .ask provider refreshToken → ¬ s.Pending provider refreshToken)
    (hc : s.Change supportsRefresh event s') {i j : Nat} {g' h' : Grant} (hij : i < j)
    (hi : s'.grants[i]? = some g') (hj : s'.grants[j]? = some h')
    (hg' : g'.Carries provider refreshToken) (hh' : h'.Carries provider refreshToken) :
    g'.IsOverBefore h' := by
  have hold : i < s.grants.length → ∃ g, s.grants[i]? = some g ∧ g'.Follows g := by
    intro hlt
    rcases of_step hc hi with ⟨g, hg, hfollows, -⟩ | ⟨_, _, -, -, -, hend, -⟩
    · exact ⟨g, hg, hfollows⟩
    · omega
  rcases of_step hc hj with ⟨h, hh, hfollows, -⟩ | ⟨_, _, rfl, hsupports, hmiss, hend, rfl⟩
  · have hlt := (List.getElem?_eq_some_iff.mp hh).1
    obtain ⟨g, hg, hgrant⟩ := hold (by omega)
    rw [Grant.Carries, hgrant.provider, hgrant.refreshToken] at hg'
    rw [Grant.Carries, hfollows.provider, hfollows.refreshToken] at hh'
    obtain ⟨landed, hlanded, hover⟩ := honce i j g h hij hg hh hg' hh'
    exact ⟨landed, hgrant.landed _ hlanded, hfollows.sent ▸ hover⟩
  · obtain ⟨rfl, rfl⟩ := hh'
    obtain ⟨g, hg, hgrant⟩ := hold (by omega)
    have hmem := List.mem_of_getElem? hg
    rw [Grant.Carries, hgrant.provider, hgrant.refreshToken] at hg'
    cases hlanded : g.landed with
    | none => exact absurd ⟨g, hmem, hg', hlanded⟩ (hok rfl)
    | some landed =>
      exact ⟨landed, hgrant.landed _ hlanded, miss_isOver hs hmiss hmem hg' hlanded⟩

private theorem not_spentOnce_ask (hs : s.Ordered supportsRefresh)
    (hcolon : ∀ provider, supportsRefresh provider = true → ':' ∉ provider.toList)
    (hpending : s.Pending provider refreshToken) (honce : s.SpentOnce provider refreshToken) :
    ¬ (s.step supportsRefresh (.ask provider refreshToken)).SpentOnce provider refreshToken := by
  obtain ⟨g, hg, hcarries, hlanded⟩ := hpending
  have hsupports : supportsRefresh provider = true := hcarries.1 ▸ (hs.sent g hg).1
  obtain ⟨i, hi⟩ := List.mem_iff_getElem?.mp hg
  intro htwice
  cases hfound : (s.cache.get s.now provider refreshToken).2 with
  | some result =>
    -- The entry found would be that of another grant, before or after the pending one.
    obtain ⟨entry, hentry, hfresh, -⟩ := RefreshCache.get_snd_eq_some_iff.mp hfound
    obtain ⟨h, hh, hkey, -, hland⟩ := hs.entry _ entry hentry
    have hother := RefreshCache.key_inj (hcolon _ (hs.sent h hh).1) (hcolon _ hsupports) hkey
    obtain ⟨j, hj⟩ := List.mem_iff_getElem?.mp hh
    rcases Nat.lt_trichotomy i j with hlt | rfl | hlt
    · obtain ⟨landed, hsome, -⟩ := honce.once i j g h hlt hi hj hcarries hother
      rw [hlanded] at hsome
      cases hsome
    · rw [Option.some.inj (hi.symm.trans hj), hland] at hlanded
      cases hlanded
    · obtain ⟨landed, hsome, hover⟩ := honce.once j i h g hlt hj hi hother hcarries
      obtain rfl := Option.some.inj (hland.symm.trans hsome)
      have hsent := (hs.sent g hg).2
      have hfresh := isFresh_iff.mp hfresh
      omega
  | none =>
    have hlt := (List.getElem?_eq_some_iff.mp hi).1
    have hnew : (s.step supportsRefresh (.ask provider refreshToken)).grants =
        s.grants ++ [⟨provider, refreshToken, s.now, none, none⟩] := by
      simp only [step, ask, if_pos hsupports, hfound]
    obtain ⟨landed, hsome, -⟩ := htwice.once i s.grants.length g _ hlt
      (by rw [hnew, List.getElem?_append_left hlt, hi])
      (by rw [hnew, List.getElem?_concat_length]) hcarries ⟨rfl, rfl⟩
    rw [hlanded] at hsome
    cases hsome

private theorem run_concat (s : Refreshing) (events : List RefreshEvent) (event : RefreshEvent) :
    s.run supportsRefresh (events ++ [event]) =
      (s.run supportsRefresh events).step supportsRefresh event := by
  rw [run, List.foldl_append]
  rfl

private theorem ordered_run (now : Nat) (events : List RefreshEvent) :
    ((start now).run supportsRefresh events).Ordered supportsRefresh := by
  induction events using List.reverseRecOn with
  | nil => exact ordered_start now
  | append_singleton events event ih =>
    rw [run_concat]
    exact ordered_step ih (change_step _ event)

private theorem reuses_run
    (hcolon : ∀ provider, supportsRefresh provider = true → ':' ∉ provider.toList) (now : Nat)
    (events : List RefreshEvent) :
    ∀ r ∈ ((start now).run supportsRefresh events).reused,
      ∃ g ∈ ((start now).run supportsRefresh events).grants,
        g.Carries r.provider r.refreshToken ∧ g.answer = some r.result ∧
          ∃ landed, g.landed = some landed ∧ landed ≤ r.taken ∧ r.taken ≤ landed + resultTtl := by
  induction events using List.reverseRecOn with
  | nil => nofun
  | append_singleton events event ih =>
    rw [run_concat]
    exact reuses_step hcolon (ordered_run now events) ih (change_step _ event)

/-- In a run in which no request asks for a token while a grant of it is pending, the grants of
the token are apart. -/
private theorem once_run {now : Nat} {events : List RefreshEvent}
    (hok : ∀ before, before ++ [.ask provider refreshToken] <+: events →
      ¬ ((start now).run supportsRefresh before).Pending provider refreshToken) :
    ∀ (i j : Nat) (g h : Grant), i < j →
      ((start now).run supportsRefresh events).grants[i]? = some g →
      ((start now).run supportsRefresh events).grants[j]? = some h →
      g.Carries provider refreshToken → h.Carries provider refreshToken → g.IsOverBefore h := by
  induction events using List.reverseRecOn with
  | nil => nofun
  | append_singleton events event ih =>
    have ih := ih fun before hprefix ↦ hok before (List.IsPrefix.trans hprefix (List.prefix_append _ _))
    intro i j g h hij hi hj hg hh
    rw [run_concat] at hi hj
    refine once_step (ordered_run now events) ih ?_ (change_step _ event) hij hi hj hg hh
    rintro rfl
    exact hok events List.prefix_rfl

end Refreshing

/-- In every run, a refresh token is spent once in every state if and only if no request asks for
it while a grant of it is pending. -/
theorem refresh_token_spent_once_iff {supportsRefresh : String → Bool}
    (hcolon : ∀ provider, supportsRefresh provider = true → ':' ∉ provider.toList) (now : Nat)
    (events : List RefreshEvent) (provider refreshToken : String) :
    (∀ before, before <+: events →
      ((Refreshing.start now).run supportsRefresh before).SpentOnce provider refreshToken) ↔
    ∀ before, before ++ [.ask provider refreshToken] <+: events →
      ¬ ((Refreshing.start now).run supportsRefresh before).Pending provider refreshToken := by
  constructor
  · intro hall before hprefix hpending
    have hstep := hall _ hprefix
    rw [Refreshing.run_concat] at hstep
    exact Refreshing.not_spentOnce_ask (Refreshing.ordered_run now before) hcolon hpending
      (hall before ((List.prefix_append _ _).trans hprefix)) hstep
  · intro hok before hprefix
    constructor
    · exact Refreshing.once_run fun earlier h ↦ hok earlier (h.trans hprefix)
    · rintro r hr rfl rfl
      exact Refreshing.reuses_run hcolon now before r hr

/-- The first result of a token, reused by a second request. -/
def reusedGrant : List RefreshEvent :=
  [.ask "claude" "refresh-1", .answer 0 (.ok ⟨"a", "b", none, none⟩), .land 0, .tick 5,
    .ask "claude" "refresh-1"]

/-- The rule for the run in which the second request comes after the first one's result. -/
theorem refresh_token_spent_once_reused :
    ((Refreshing.start 0).run (· == "claude") reusedGrant).SpentOnce "claude" "refresh-1" := by
  refine (refresh_token_spent_once_iff ?_ 0 reusedGrant "claude" "refresh-1").mpr ?_
    reusedGrant List.prefix_rfl
  · intro provider hprovider
    rw [eq_of_beq hprovider]
    decide
  · intro before hprefix
    obtain ⟨rest, hrest⟩ := hprefix
    rcases before with _ | ⟨e₁, _ | ⟨e₂, _ | ⟨e₃, _ | ⟨e₄, _ | ⟨e₅, before⟩⟩⟩⟩⟩
    · nofun
    · simp [reusedGrant] at hrest
    · simp [reusedGrant] at hrest
    · simp [reusedGrant] at hrest
    · simp only [reusedGrant, List.cons_append, List.nil_append, List.cons.injEq] at hrest
      obtain ⟨rfl, rfl, rfl, rfl, -⟩ := hrest
      rintro ⟨g, hg, -, hlanded⟩
      obtain rfl := List.mem_singleton.mp hg
      cases hlanded
    · simp [reusedGrant] at hrest

/-- Two requests that ask before the first grant is answered both send one. -/
theorem refresh_token_spent_twice :
    ¬ ∀ (supportsRefresh : String → Bool) (now : Nat) (events : List RefreshEvent)
      (provider refreshToken : String),
      (∀ provider, supportsRefresh provider = true → ':' ∉ provider.toList) →
      ((Refreshing.start now).run supportsRefresh events).SpentOnce provider refreshToken := by
  intro hall
  have hspent := hall (· == "claude") 0 [.ask "claude" "refresh-1", .ask "claude" "refresh-1"]
    "claude" "refresh-1" (fun provider hprovider ↦ by
      rw [eq_of_beq hprovider]
      decide)
  obtain ⟨landed, hlanded, -⟩ := hspent.once 0 1
    ⟨"claude", "refresh-1", 0, none, none⟩ ⟨"claude", "refresh-1", 0, none, none⟩ (by decide)
    (by rfl) (by rfl) ⟨rfl, rfl⟩ ⟨rfl, rfl⟩
  cases hlanded

end NullRouter.Runtime
