import NullRouter.Base.PercentEncoding
import NullRouter.Gateway.Kinds
import NullRouter.Gateway.Policy

/-!
# Percent-encoded paths at the gateway

The gateway tests the path as it came, so a rule sees only what stands before the first
character that is written as `%XX`. Here is what each rule sees of an escaped path
(`services/gateway-pingora/src/routing.rs`, `policy.rs`).
-/

namespace NullRouter.Gateway

open NullRouter.Base

/-- `path.starts_with("{root}/")`. -/
def Path.strictlyUnder (p : Path) (root : String) : Bool := p.startsWith (root ++ "/")

/-- The roots that make a path host-only for a method. -/
def hostOnlyRoots (method : Method) : List String :=
  hostOnlyPrefixes ++ if method.mutating then hostOnlyWritePrefixes else []

/-- Two paths that agree up to a character that the second writes as `%XX`. -/
def Cut (p q c : Path) : Prop :=
  ∃ (x hi lo : Char) (r r' : List Char), p = c ++ x :: r ∧ q = c ++ '%' :: hi :: lo :: r' ∧
    '/' ≠ x ∧ '/' ≠ hi ∧ '/' ≠ lo ∧ ('/' ∈ r ↔ '/' ∈ r')

/-- A path that differs from its escaping is cut at their common prefix. -/
theorem cut_of_escapes {p q : Path} (h : Escapes p q) (hne : q ≠ p) :
    Cut p q (commonPrefix p q) := by
  obtain ⟨x, hi, lo, r, r', hp, hq, hx, hhi, hlo, hrest⟩ := h.exists_first hne
  exact ⟨x, hi, lo, r, r', hp, hq, hx, hhi, hlo, hrest.mem_slash_iff⟩

namespace Cut

variable {p q c : Path}

/-- The escaped path is no literal. -/
theorem eqLit (h : Cut p q c) {l : String} (hl : '%' ∉ l.toList) : q.eqLit l = false := by
  obtain ⟨x, hi, lo, r, r', -, hq, -⟩ := h
  rw [← Bool.not_eq_true, Path.eqLit_iff]
  intro e
  exact hl (by rw [← e, hq]; simp)

/-- The escaped path begins with a literal where the common part does. -/
theorem startsWith (h : Cut p q c) {l : String} (hl : '%' ∉ l.toList) :
    q.startsWith l = c.startsWith l := by
  obtain ⟨x, hi, lo, r, r', -, hq, -⟩ := h
  rw [Bool.eq_iff_iff, Path.startsWith_iff, Path.startsWith_iff, hq]
  exact isPrefix_append_percent hl

/-- The escaped path is under a root where the common part is strictly under it. -/
theorem under (h : Cut p q c) {root : String} (hl : '%' ∉ root.toList) :
    q.under root = c.strictlyUnder root := by
  have hl' : '%' ∉ (root ++ "/").toList := by
    rw [String.toList_append, List.mem_append]
    exact not_or.mpr ⟨hl, by decide⟩
  rw [Path.under, h.eqLit hl, h.startsWith hl', Bool.false_or, Path.strictlyUnder]

/-- The path begins with what the common part begins with. -/
theorem of_startsWith (h : Cut p q c) {l : String} (hc : c.startsWith l = true) :
    p.startsWith l = true := by
  obtain ⟨x, hi, lo, r, r', hp, -⟩ := h
  rw [Path.startsWith_iff] at hc ⊢
  exact hp ▸ hc.trans (List.prefix_append _ _)

/-- The path is under the roots the common part is strictly under. -/
theorem of_under (h : Cut p q c) {root : String} (hc : c.strictlyUnder root = true) :
    p.under root = true := by
  rw [Path.under, h.of_startsWith hc, Bool.or_true]

/-- Of a collection that ends before the cut, the escaped path is an item where the path is,
and never a reserved one; of any other collection it is not an item. -/
theorem itemExcept (h : Cut p q c) {collection : String} (hl : '%' ∉ collection.toList)
    {reserved : List String} (hr : ∀ item ∈ reserved, '%' ∉ item.toList) :
    q.isCollectionOrItemExcept collection reserved =
      (c.strictlyUnder collection && p.isCollectionOrItem collection) := by
  have hl' : '%' ∉ (collection ++ "/").toList := by
    rw [String.toList_append, List.mem_append]
    exact not_or.mpr ⟨hl, by decide⟩
  have hnot := h.eqLit hl
  have hbegins := h.startsWith hl'
  rw [Bool.eq_iff_iff, Path.isCollectionOrItemExcept_iff, Bool.and_eq_true,
    Path.isCollectionOrItem_iff]
  rw [← Bool.not_eq_true, Path.eqLit_iff] at hnot
  have strict {t : Path} {tail : List Char} (ht : t = collection.toList ++ '/' :: tail) :
      t.startsWith (collection ++ "/") = true := by
    rw [Path.startsWith_iff, ht]
    exact ⟨tail, by simp⟩
  constructor
  · rintro (hq | ⟨tail, hq, -, hslash, -⟩)
    · exact absurd hq hnot
    · have hc : c.strictlyUnder collection = true := hbegins.symm.trans (strict hq)
      refine ⟨hc, .inr ?_⟩
      obtain ⟨x, hi, lo, r, r', hp, hq', hx, hhi, hlo, hrest⟩ := h
      obtain ⟨t, ht⟩ := Path.startsWith_iff.mp hc
      have htail : tail = t ++ '%' :: hi :: lo :: r' := by
        have e : collection.toList ++ '/' :: tail =
            collection.toList ++ '/' :: (t ++ '%' :: hi :: lo :: r') := by
          rw [← hq, hq', ← ht]
          simp
        simpa using e
      refine ⟨t ++ x :: r, by rw [hp, ← ht]; simp, by simp, ?_⟩
      subst htail
      simp only [List.mem_append, List.mem_cons, not_or] at hslash ⊢
      exact ⟨hslash.1, hx, hrest.not.mpr hslash.2.2.2.2⟩
  · rintro ⟨hc, hitem⟩
    right
    have hp' := h.of_startsWith hc
    obtain ⟨x, hi, lo, r, r', hp, hq', hx, hhi, hlo, hrest⟩ := h
    obtain ⟨t, ht⟩ := Path.startsWith_iff.mp hc
    have hpt : p = collection.toList ++ '/' :: (t ++ x :: r) := by rw [hp, ← ht]; simp
    refine ⟨t ++ '%' :: hi :: lo :: r', by rw [hq', ← ht]; simp, by simp, ?_, ?_⟩
    · rcases hitem with e | ⟨tail, e, -, hslash⟩
      · rw [hpt] at e
        simp at e
      · have htail : t ++ x :: r = tail := by simpa [hpt] using e
        subst htail
        simp only [List.mem_append, List.mem_cons, not_or] at hslash ⊢
        exact ⟨hslash.1, by decide, hhi, hlo, hrest.not.mp hslash.2.2⟩
    · intro item hmem e
      exact hr item hmem (by rw [e]; simp)

/-- The same of a collection without reserved items. -/
theorem item (h : Cut p q c) {collection : String} (hl : '%' ∉ collection.toList) :
    q.isCollectionOrItem collection =
      (c.strictlyUnder collection && p.isCollectionOrItem collection) := by
  rw [← h.itemExcept hl (List.forall_mem_nil _)]
  simp [Path.isCollectionOrItem, Path.isCollectionOrItemExcept]

/-- What the rules of the escaped path see. -/
theorem events (h : Cut p q c) : q.isEventsPath = c.strictlyUnder "/api/mcp" := by
  rw [Path.isEventsPath, h.eqLit (by decide), h.eqLit (by decide), h.under (by decide),
    Bool.false_or, Bool.false_or]

theorem auth (h : Cut p q c) : q.isAuthPath = c.strictlyUnder "/api/auth" :=
  h.under (by decide)

theorem runtime (h : Cut p q c) : q.isRuntimePath =
    ["/v1", "/v1beta", "/api/v1", "/api/v1beta"].any (c.strictlyUnder ·) := by
  rw [Path.isRuntimePath, h.under (by decide), h.under (by decide), h.under (by decide),
    h.under (by decide)]
  simp [Bool.or_assoc]

theorem catalog (h : Cut p q c) : q.isCatalogPath =
    ["/api/catalog", "/api/state"].any (c.strictlyUnder ·) := by
  rw [Path.isCatalogPath, h.under (by decide), h.under (by decide)]
  simp

theorem state (h : Cut p q c) : q.isStatePath =
    Path.stateCollections.any (fun l ↦ c.strictlyUnder l && p.isCollectionOrItem l) := by
  rw [Path.isStatePath, Path.isModelSettingsPath, h.item (by decide), h.item (by decide),
    h.itemExcept (by decide) (by decide), h.item (by decide), h.itemExcept (by decide) (by decide),
    h.eqLit (by decide), h.eqLit (by decide), h.eqLit (by decide), h.eqLit (by decide)]
  simp [Path.stateCollections, Bool.or_assoc]

theorem internal (h : Cut p q c) : q.isInternalPath = c.strictlyUnder "/internal" :=
  h.under (by decide)

theorem users (h : Cut p q c) : q.under "/api/users" = c.strictlyUnder "/api/users" :=
  h.under (by decide)

theorem publicPath (h : Cut p q c) : q.isPublicPath =
    (["/pkg/", "/providers/", "/assets/"].any (c.startsWith ·) ||
      c.strictlyUnder "/api/auth") := by
  rw [Path.isPublicPath, h.eqLit (by decide), h.eqLit (by decide), h.eqLit (by decide),
    h.eqLit (by decide), h.eqLit (by decide), h.eqLit (by decide), h.eqLit (by decide),
    h.startsWith (by decide), h.startsWith (by decide), h.startsWith (by decide),
    h.startsWith (by decide)]
  simp [Path.strictlyUnder, Bool.or_assoc]

theorem hostOnly (h : Cut p q c) (method : Method) :
    (q.isHostOnlyPath || q.isHostOnlyWrite method) =
      (hostOnlyRoots method).any (c.strictlyUnder ·) := by
  have matches_ {l : List String} (hl : ∀ root ∈ l, '%' ∉ root.toList) :
      Path.matchesPrefix l q = l.any (c.strictlyUnder ·) := by
    unfold Path.matchesPrefix
    induction l with
    | nil => rfl
    | cons root l ih =>
      rw [List.any_cons, List.any_cons, h.under (hl root (by simp)),
        ih fun r hr ↦ hl r (by simp [hr])]
  rw [Path.isHostOnlyPath, Path.isHostOnlyWrite, matches_ (by decide), matches_ (by decide),
    hostOnlyRoots, List.any_append]
  cases method.mutating <;> simp

/-- The path is a path of every kind the escaped one is of, but for a disguised reserved item. -/
theorem isKind_of (h : Cut p q c) {kind : RouteKind} (hk : kind ≠ .state)
    (hq : Path.isKind kind q = true) : Path.isKind kind p = true := by
  cases kind with
  | events =>
    rw [Path.isKind, h.events] at hq
    simp only [Path.isKind, Path.isEventsPath, h.of_under hq, Bool.or_true]
  | auth => exact h.of_under (h.auth.symm.trans hq)
  | runtime =>
    rw [Path.isKind, h.runtime] at hq
    simp only [List.any_cons, List.any_nil, Bool.or_false, Bool.or_eq_true] at hq
    simp only [Path.isKind, Path.isRuntimePath, Bool.or_eq_true]
    rcases hq with hq | hq | hq | hq
    · exact .inl (.inl (.inl (h.of_under hq)))
    · exact .inl (.inl (.inr (h.of_under hq)))
    · exact .inl (.inr (h.of_under hq))
    · exact .inr (h.of_under hq)
  | catalog =>
    rw [Path.isKind, h.catalog] at hq
    simp only [List.any_cons, List.any_nil, Bool.or_false, Bool.or_eq_true] at hq
    simp only [Path.isKind, Path.isCatalogPath, Bool.or_eq_true]
    exact hq.imp h.of_under h.of_under
  | state => exact absurd rfl hk
  | api => cases hq
  | dashboard => cases hq

theorem internal_of (h : Cut p q c) (hq : q.isInternalPath = true) : p.isInternalPath = true :=
  h.of_under (h.internal.symm.trans hq)

theorem publicPath_of (h : Cut p q c) (hq : q.isPublicPath = true) : p.isPublicPath = true := by
  rw [h.publicPath, Bool.or_eq_true] at hq
  simp only [List.any_cons, List.any_nil, Bool.or_false, Bool.or_eq_true] at hq
  unfold Path.isPublicPath
  rcases hq with (hq | hq | hq) | hq
  · simp [h.of_startsWith hq]
  · simp [h.of_startsWith hq]
  · simp [h.of_startsWith hq]
  · have : p.startsWith "/api/auth/" = true := h.of_startsWith hq
    simp [this]

theorem hostOnly_of (h : Cut p q c) {method : Method}
    (hq : (q.isHostOnlyPath || q.isHostOnlyWrite method) = true) :
    (p.isHostOnlyPath || p.isHostOnlyWrite method) = true := by
  rw [h.hostOnly, hostOnlyRoots, List.any_append, Bool.or_eq_true] at hq
  rw [Bool.or_eq_true]
  refine hq.imp (fun hq ↦ ?_) (fun hq ↦ ?_)
  · obtain ⟨root, hmem, hc⟩ := List.any_eq_true.mp hq
    exact List.any_eq_true.mpr ⟨root, hmem, h.of_under hc⟩
  · cases hm : method.mutating with
    | false => simp [hm] at hq
    | true =>
      simp only [hm, if_true] at hq
      obtain ⟨root, hmem, hc⟩ := List.any_eq_true.mp hq
      rw [Path.isHostOnlyWrite, hm, Bool.true_and]
      exact List.any_eq_true.mpr ⟨root, hmem, h.of_under hc⟩

end Cut
end NullRouter.Gateway
