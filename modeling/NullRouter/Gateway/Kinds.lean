import Mathlib.Tactic.Common
import NullRouter.Gateway.Policy

/-!
# The kinds of paths that `route_for_path` tells apart

Each kind of route has a rule of its own, and `route_for_path`
(`services/gateway-pingora/src/routing.rs:4`) asks them in order. No path meets two of them,
so the order does not matter: the route is the kind of the path where it has one.
-/

namespace NullRouter.Gateway

namespace Path

variable {p q c : Path} {literal root collection : String}

theorem eqLit_iff : p.eqLit literal = true ↔ p = literal.toList := by
  simp [eqLit]

theorem startsWith_iff : p.startsWith literal = true ↔ literal.toList <+: p := by
  simp [startsWith]

theorem under_iff :
    p.under root = true ↔ p = root.toList ∨ (root ++ "/").toList <+: p := by
  simp [under, eqLit_iff, startsWith_iff]

/-- A path under a root begins with it. -/
theorem isPrefix_of_under (h : p.under root = true) : root.toList <+: p := by
  rcases under_iff.mp h with rfl | h
  · exact List.prefix_refl _
  · rw [String.toList_append] at h
    exact (List.prefix_append _ _).trans h

/-- The collections whose items are stored records. -/
def stateCollections : List String :=
  ["/api/keys", "/api/provider-nodes", "/api/providers", "/api/combos", "/api/proxy-pools"]

/-- The rule of each kind of route that has one of its own. -/
def isKind : RouteKind → Path → Bool
  | .events, p => p.isEventsPath
  | .auth, p => p.isAuthPath
  | .runtime, p => p.isRuntimePath
  | .catalog, p => p.isCatalogPath
  | .state, p => p.isStatePath
  | .api, _ | .dashboard, _ => false

/-- The literals one of which begins every path of a kind. -/
def roots : RouteKind → List String
  | .events => ["/api/usage/stream", "/api/translator/console-logs/stream", "/api/mcp"]
  | .auth => ["/api/auth"]
  | .runtime => ["/v1", "/api/v1"]
  | .catalog => ["/api/catalog", "/api/state"]
  | .state => stateCollections ++
      ["/api/settings", "/api/models/disabled", "/api/models/custom", "/api/models/alias"]
  | .api | .dashboard => []

theorem itemOf_iff {tail : List Char} :
    p.itemOf collection = some tail ↔ p = collection.toList ++ '/' :: tail := by
  rw [itemOf, List.isPrefixOf?_eq_some_iff_append_eq, eq_comm]
  simp

theorem isCollectionOrItem_iff : p.isCollectionOrItem collection = true ↔
    p = collection.toList ∨
      ∃ tail, p = collection.toList ++ '/' :: tail ∧ tail ≠ [] ∧ '/' ∉ tail := by
  simp only [isCollectionOrItem, Bool.or_eq_true, eqLit_iff, Option.any_eq_true, itemOf_iff]
  simp

theorem isCollectionOrItemExcept_iff {reserved : List String} :
    p.isCollectionOrItemExcept collection reserved = true ↔
      p = collection.toList ∨
        ∃ tail, p = collection.toList ++ '/' :: tail ∧ tail ≠ [] ∧ '/' ∉ tail ∧
          ∀ item ∈ reserved, item.toList ≠ tail := by
  simp only [isCollectionOrItemExcept, Bool.or_eq_true, eqLit_iff, Option.any_eq_true, itemOf_iff]
  simp [and_assoc]

/-- An item rule with reserved items is narrower than the one without. -/
theorem isCollectionOrItem_of_except {reserved : List String}
    (h : p.isCollectionOrItemExcept collection reserved = true) :
    p.isCollectionOrItem collection = true := by
  rw [isCollectionOrItem_iff]
  rcases isCollectionOrItemExcept_iff.mp h with h | ⟨tail, hp, hne, hs, -⟩
  · exact .inl h
  · exact .inr ⟨tail, hp, hne, hs⟩

private theorem isPrefix_of_collection (h : p.isCollectionOrItem collection = true) :
    collection.toList <+: p := by
  rcases isCollectionOrItem_iff.mp h with rfl | ⟨tail, rfl, -⟩
  · exact List.prefix_refl _
  · exact List.prefix_append _ _

/-- Every path of a kind begins with one of the kind's literals. -/
theorem exists_root {kind : RouteKind} (h : isKind kind p = true) :
    ∃ l ∈ roots kind, l.toList <+: p := by
  have lit {l : String} (h : p.eqLit l = true) : l.toList <+: p :=
    eqLit_iff.mp h ▸ List.prefix_refl _
  cases kind with
  | events =>
    simp only [isKind, isEventsPath, Bool.or_eq_true] at h
    rcases h with (h | h) | h
    · exact ⟨_, by simp [roots], lit h⟩
    · exact ⟨"/api/translator/console-logs/stream", by simp [roots], lit h⟩
    · exact ⟨"/api/mcp", by simp [roots], isPrefix_of_under h⟩
  | auth => exact ⟨"/api/auth", by simp [roots], isPrefix_of_under h⟩
  | runtime =>
    have beta {l : String} (h : (l ++ "beta").toList <+: p) : l.toList <+: p := by
      rw [String.toList_append] at h
      exact (List.prefix_append _ _).trans h
    simp only [isKind, isRuntimePath, Bool.or_eq_true] at h
    rcases h with ((h | h) | h) | h
    · exact ⟨"/v1", by simp [roots], isPrefix_of_under h⟩
    · exact ⟨"/v1", by simp [roots], beta (isPrefix_of_under h)⟩
    · exact ⟨"/api/v1", by simp [roots], isPrefix_of_under h⟩
    · exact ⟨"/api/v1", by simp [roots], beta (isPrefix_of_under h)⟩
  | catalog =>
    simp only [isKind, isCatalogPath, Bool.or_eq_true] at h
    rcases h with h | h
    · exact ⟨"/api/catalog", by simp [roots], isPrefix_of_under h⟩
    · exact ⟨"/api/state", by simp [roots], isPrefix_of_under h⟩
  | state =>
    simp only [isKind, isStatePath, isModelSettingsPath, Bool.or_eq_true] at h
    rcases h with (((((h | h) | h) | h) | h) | h) | ((h | h) | h)
    · exact ⟨_, by simp [roots, stateCollections], isPrefix_of_collection h⟩
    · exact ⟨"/api/provider-nodes", by simp [roots, stateCollections], isPrefix_of_collection h⟩
    · exact ⟨"/api/providers", by simp [roots, stateCollections],
        isPrefix_of_collection (isCollectionOrItem_of_except h)⟩
    · exact ⟨"/api/combos", by simp [roots, stateCollections], isPrefix_of_collection h⟩
    · exact ⟨"/api/proxy-pools", by simp [roots, stateCollections],
        isPrefix_of_collection (isCollectionOrItem_of_except h)⟩
    · exact ⟨"/api/settings", by simp [roots], lit h⟩
    · exact ⟨"/api/models/disabled", by simp [roots], lit h⟩
    · exact ⟨"/api/models/custom", by simp [roots], lit h⟩
    · exact ⟨"/api/models/alias", by simp [roots], lit h⟩
  | api => cases h
  | dashboard => cases h

/-- Of two literals that begin one path, one begins the other. -/
theorem comparable {l m : String} (hl : l.toList <+: p) (hm : m.toList <+: p) :
    l.toList.isPrefixOf m.toList = true ∨ m.toList.isPrefixOf l.toList = true := by
  simpa only [List.isPrefixOf_iff_prefix] using List.prefix_or_prefix_of_prefix hl hm

/-- No literal of one list begins one of the other. -/
def Apart (ls ms : List String) : Prop :=
  ∀ l ∈ ls, ∀ m ∈ ms,
    ¬ (l.toList.isPrefixOf m.toList = true ∨ m.toList.isPrefixOf l.toList = true)

instance (ls ms : List String) : Decidable (Apart ls ms) :=
  inferInstanceAs (Decidable (∀ l ∈ ls, ∀ m ∈ ms,
    ¬ (l.toList.isPrefixOf m.toList = true ∨ m.toList.isPrefixOf l.toList = true)))

/-- No path begins with literals of two lists that are apart. -/
theorem Apart.not_isPrefix {ls ms : List String} (h : Apart ls ms)
    (hl : ∃ l ∈ ls, l.toList <+: p) : ¬ ∃ m ∈ ms, m.toList <+: p := by
  rintro ⟨m, hm, hmp⟩
  obtain ⟨l, hl, hlp⟩ := hl
  exact h l hl m hm (comparable hlp hmp)

/-- A path has at most one kind. -/
theorem isKind_unique {kind kind' : RouteKind} (h : isKind kind p = true)
    (h' : isKind kind' p = true) : kind = kind' := by
  have apart : ∀ k k' : RouteKind, k ≠ k' → Apart (roots k) (roots k') := by
    intro k k' hne
    cases k <;> cases k' <;> first | exact absurd rfl hne | decide
  by_contra hne
  exact (apart kind kind' hne).not_isPrefix (exists_root h) (exists_root h')

private theorem fast_iff :
    (p.startsWith "/v1/" || p.eqLit "/v1" || p.startsWith "/v1beta/" || p.eqLit "/v1beta") =
      (p.under "/v1" || p.under "/v1beta") := by
  simp only [under, Bool.or_assoc]
  rw [← Bool.or_assoc, Bool.or_comm (p.startsWith "/v1/"), Bool.or_assoc]
  congr 2
  exact Bool.or_comm _ _

private theorem fast_or_api {kind : RouteKind} (h : isKind kind p = true) :
    (p.under "/v1" || p.under "/v1beta") = true ∨ ∃ tail, tail ≠ [] ∧ p = "/api".toList ++ tail := by
  have api {l : String} (hl : "/api/".toList.isPrefixOf l.toList = true) (hp : l.toList <+: p) :
      ∃ tail, tail ≠ [] ∧ p = "/api".toList ++ tail := by
    obtain ⟨tail, rfl⟩ := (List.isPrefixOf_iff_prefix.mp hl).trans hp
    exact ⟨'/' :: tail, by simp, rfl⟩
  by_cases hk : kind = .runtime
  · subst hk
    simp only [isKind, isRuntimePath, Bool.or_eq_true] at h ⊢
    rcases h with ((h | h) | h) | h
    · exact .inl (.inl h)
    · exact .inl (.inr h)
    · exact .inr (api (by decide) (isPrefix_of_under h))
    · exact .inr (api (by decide) (isPrefix_of_under h))
  · obtain ⟨l, hl, hp⟩ := exists_root h
    have hroots : ∀ k : RouteKind, k ≠ .runtime → ∀ l ∈ roots k,
        "/api/".toList.isPrefixOf l.toList = true := by
      intro k hne
      cases k <;> first | exact absurd rfl hne | decide
    exact .inr (api (hroots kind hk l hl) hp)

/-- `route_for_path` answers with the kind of the path where it has one. -/
theorem routeForPath_of_kind {kind : RouteKind} (h : isKind kind p = true) :
    p.routeForPath = kind := by
  unfold routeForPath
  rw [fast_iff]
  split
  · next hfast =>
    have hrun : isKind .runtime p = true := by
      simp only [isKind, isRuntimePath, hfast, Bool.true_or]
    exact isKind_unique hrun h
  · next hfast =>
    obtain ⟨tail, hne, hp⟩ := (fast_or_api h).resolve_left hfast
    have hstrip : "/api".toList.isPrefixOf? p = some tail :=
      List.isPrefixOf?_eq_some_iff_append_eq.mpr hp.symm
    have other {k : RouteKind} (hk : isKind k p = true) : k = kind := isKind_unique hk h
    rw [hstrip]
    split
    · next e => cases e
    · next e => exact absurd (Option.some.inj e) hne
    · split
      · next hk => exact @other .events hk
      · split
        · next hk => exact @other .auth hk
        · split
          · next hk => exact @other .runtime hk
          · split
            · next hk => exact @other .catalog hk
            · split
              · next hk => exact @other .state hk
              · cases kind <;> simp_all [isKind]

/-- A route of its own kind comes from the kind's rule. -/
theorem kind_of_routeForPath {kind : RouteKind} (h : p.routeForPath = kind)
    (hk : kind ≠ .api ∧ kind ≠ .dashboard) : isKind kind p = true := by
  unfold routeForPath at h
  rw [fast_iff] at h
  split at h
  · next hfast =>
    subst h
    simp only [isKind, isRuntimePath, hfast, Bool.true_or]
  · split at h
    · exact absurd h.symm hk.2
    · exact absurd h.symm hk.1
    · split at h
      · next he => exact h ▸ he
      · split at h
        · next he => exact h ▸ he
        · split at h
          · next he => exact h ▸ he
          · split at h
            · next he => exact h ▸ he
            · split at h
              · next he => exact h ▸ he
              · exact absurd h.symm hk.1

/-- The dashboard serves exactly what has no kind and is not under `/api`. -/
theorem routeForPath_eq_dashboard_iff : p.routeForPath = .dashboard ↔
    p.startsWith "/api" = false ∧ ∀ kind, isKind kind p = false := by
  constructor
  · intro h
    have hnone : ∀ kind, isKind kind p = false := fun kind ↦ by
      by_contra hk
      rw [Bool.not_eq_false] at hk
      have e := (routeForPath_of_kind hk).symm.trans h
      subst e
      cases hk
    refine ⟨?_, hnone⟩
    unfold routeForPath at h
    split at h
    · cases h
    · split at h
      · next hstrip =>
        rw [startsWith, ← List.isSome_isPrefixOf?_eq_isPrefixOf, hstrip]
        rfl
      · cases h
      · have hevents := hnone .events
        have hauth := hnone .auth
        have hruntime := hnone .runtime
        have hcatalog := hnone .catalog
        have hstate := hnone .state
        simp only [isKind] at hevents hauth hruntime hcatalog hstate
        simp [hevents, hauth, hruntime, hcatalog, hstate] at h
  · rintro ⟨hapi, hnone⟩
    have hfast : (p.under "/v1" || p.under "/v1beta") = false := by
      have := hnone .runtime
      simp only [isKind, isRuntimePath, Bool.or_eq_false_iff] at this
      simp [this.1.1.1, this.1.1.2]
    unfold routeForPath
    rw [fast_iff, hfast]
    rw [startsWith, ← List.isSome_isPrefixOf?_eq_isPrefixOf, Option.isSome_eq_false_iff,
      Option.isNone_iff_eq_none] at hapi
    rw [hapi]
    rfl

/-- Paths of the same kinds, both or neither under `/api`, have one route. -/
theorem routeForPath_congr (hk : ∀ kind, isKind kind q = isKind kind p)
    (hapi : q.startsWith "/api" = p.startsWith "/api") : q.routeForPath = p.routeForPath := by
  by_cases h : ∃ kind, isKind kind p = true
  · obtain ⟨kind, h⟩ := h
    rw [routeForPath_of_kind h, routeForPath_of_kind ((hk kind).trans h)]
  · have hnone : ∀ kind, isKind kind p = false := fun kind ↦ by
      by_contra hkind
      exact h ⟨kind, by simpa using hkind⟩
    have dashboardOrApi (t : Path) (ht : ∀ kind, isKind kind t = false) :
        t.routeForPath = .dashboard ∨ t.routeForPath = .api := by
      by_contra hne
      push Not at hne
      have := kind_of_routeForPath rfl ⟨hne.2, hne.1⟩
      rw [ht] at this
      cases this
    have hnone' : ∀ kind, isKind kind q = false := fun kind ↦ (hk kind).trans (hnone kind)
    have hiff : q.routeForPath = .dashboard ↔ p.routeForPath = .dashboard := by
      rw [routeForPath_eq_dashboard_iff, routeForPath_eq_dashboard_iff, hapi]
      exact ⟨fun h ↦ ⟨h.1, hnone⟩, fun h ↦ ⟨h.1, hnone'⟩⟩
    rcases dashboardOrApi p hnone with hp | hp
    · rw [hp, hiff.mpr hp]
    · rcases dashboardOrApi q hnone' with hq | hq
      · rw [hiff.mp hq, hq]
      · rw [hp, hq]

end Path
end NullRouter.Gateway
