import Mathlib.Algebra.Order.Ring.Int
import Mathlib.Logic.Function.Basic
import NullRouter.Base.Lists
import NullRouter.Base.Run

/-!
# The bridge to MCP servers

`services/events-actix/src/mcp/bridge.rs`: a child process for each plugin, a task that pumps its
output, and the listeners that it is pumped to. An operation under the lock of the sessions is one
step; a child that is killed, a child that exits and a pump that ends are steps of their own. A
channel is closed when its sender is no longer in a map of listeners.
-/

namespace NullRouter.Mcp

open NullRouter.Base

/-- A child, its pump and the map of listeners that they share, `bridge.rs:69` and `266`. -/
structure Child where
  plugin : String
  /-- The process runs. -/
  alive : Bool := true
  /-- `kill_all` has taken the session, and not killed the process yet. -/
  killing : Bool := false
  /-- The task still reads the child's output. -/
  pumping : Bool := true
  /-- The senders by listener id, each with the listener it was made for. -/
  sinks : List (Nat × Nat) := []
  deriving DecidableEq

namespace Child

/-- A sender is put in the map under an id, `bridge.rs:165`. -/
def listen (child : Child) (id listener : Nat) : Child :=
  { child with sinks := child.sinks.filter (·.1 ≠ id) ++ [(id, listener)] }

/-- A sender is taken out of the map, `bridge.rs:208`. -/
def leave (child : Child) (id : Nat) : Child :=
  { child with sinks := child.sinks.filter (·.1 ≠ id) }

/-- `reap`, `bridge.rs:236`; with the session its hold of the map goes, and with it the map, unless
the pump holds it too. -/
def reap (child : Child) : Child :=
  { child with
    alive := false
    killing := false
    sinks := if child.pumping then child.sinks else [] }

/-- The end of `pump`, `bridge.rs:316`: the map is cleared. -/
def endPump (child : Child) : Child := { child with pumping := false, sinks := [] }

end Child

/-- `Session`, `bridge.rs:69`. -/
structure Session where
  child : Nat
  nextListenerId : Nat
  deriving DecidableEq

/-- `Listener`, `bridge.rs:90`, and whether its client has gone. -/
structure Listener where
  plugin : String
  id : Nat
  child : Nat
  gone : Bool := false
  deriving DecidableEq

/-- `Bridge`, `bridge.rs:79`, with every child started and every listener made. -/
structure Bridge where
  sessions : String → Option Session := fun _ ↦ none
  children : List Child := []
  listeners : List Listener := []

/-- What happens to a bridge. -/
inductive Event where
  /-- `attach`; whether the command starts, where it has to. -/
  | attach (plugin : String) (starts : Bool)
  /-- `Listener::detach`. -/
  | detach (listener : Nat)
  /-- The response body is dropped, and the listener with it. -/
  | disconnect (listener : Nat)
  /-- The child exits. -/
  | exit (child : Nat)
  /-- The pump reads the end of the output, or fails to read. -/
  | endPump (child : Nat)
  /-- `kill_all` takes the sessions. -/
  | killAll
  /-- `kill_all` has killed a child that it took. -/
  | killed (child : Nat)

namespace Bridge

/-- The listener that `attach` makes of a session, `bridge.rs:158–172`. -/
def join (b : Bridge) (plugin : String) (session : Session) : Bridge where
  sessions := Function.update b.sessions plugin
    (some ⟨session.child, (session.nextListenerId + 1) % 2 ^ 64⟩)
  children :=
    b.children.modify session.child (·.listen session.nextListenerId b.listeners.length)
  listeners := b.listeners ++ [⟨plugin, session.nextListenerId, session.child, false⟩]

/-- The child that `spawn_session` starts, `bridge.rs:245`. -/
def spawn (b : Bridge) (plugin : String) : Bridge :=
  { b with children := b.children ++ [{ plugin := plugin }] }

/-- `attach`, `bridge.rs:153`. -/
def attach (b : Bridge) (plugin : String) (starts : Bool) : Bridge :=
  match b.sessions plugin with
  | some session => b.join plugin session
  | none =>
    if starts then (b.spawn plugin).join plugin ⟨b.children.length, 0⟩ else b

/-- `detach`, `bridge.rs:201`. -/
def detach (b : Bridge) (plugin : String) (id : Nat) : Bridge :=
  match b.sessions plugin with
  | none => b
  | some session =>
    if (b.children[session.child]?).any fun child ↦ !(child.leave id).sinks.isEmpty then
      { b with children := b.children.modify session.child (·.leave id) }
    else
      { b with
        sessions := Function.update b.sessions plugin none
        children := b.children.modify session.child fun child ↦ (child.leave id).reap }

/-- Whether the session of a plugin has the child at a place. -/
def holds (b : Bridge) (place : Nat) (child : Child) : Bool :=
  (b.sessions child.plugin).any (·.child == place)

/-- The sessions that `kill_all` takes, `bridge.rs:223–224`. -/
def killAll (b : Bridge) : Bridge :=
  { b with
    sessions := fun _ ↦ none
    children := b.children.mapIdx fun place child ↦
      if b.holds place child then { child with killing := true } else child }

/-- An event in its turn. -/
def act (b : Bridge) : Event → Bridge
  | .attach plugin starts => b.attach plugin starts
  | .detach listener =>
    match b.listeners[listener]? with
    | some own => b.detach own.plugin own.id
    | none => b
  | .disconnect listener =>
    { b with listeners := b.listeners.modify listener fun own ↦ { own with gone := true } }
  | .exit child =>
    { b with children := b.children.modify child fun own ↦ { own with alive := false } }
  | .endPump child => { b with children := b.children.modify child Child.endPump }
  | .killAll => b.killAll
  | .killed child =>
    { b with
      children := b.children.modify child fun own ↦ if own.killing then own.reap else own }

/-- The bridge after some events. -/
def after (events : List Event) : Bridge := events.foldl act {}

/-- The channel of a listener is open: its sender is in the map of its child. -/
def Open (b : Bridge) (listener : Nat) : Prop :=
  ∃ own child, b.listeners[listener]? = some own ∧ b.children[own.child]? = some child ∧
    (own.id, listener) ∈ child.sinks

/-- A listener has a live child whose output is pumped to it. -/
def Served (b : Bridge) (listener : Nat) : Prop :=
  ∃ own child, b.listeners[listener]? = some own ∧ b.children[own.child]? = some child ∧
    (own.id, listener) ∈ child.sinks ∧ child.alive = true ∧ child.pumping = true

/-- A listener is live: its client is there and its channel open. -/
def Live (b : Bridge) (plugin : String) (listener : Nat) : Prop :=
  ∃ own, b.listeners[listener]? = some own ∧ own.plugin = plugin ∧ own.gone = false ∧
    b.Open listener

/-- No operation is in progress: nothing is being killed, and no pump has the end of its child's
output to read. -/
def Quiet (b : Bridge) : Prop :=
  ∀ child ∈ b.children, child.killing = false ∧ (child.alive = false → child.pumping = false)

end Bridge
end NullRouter.Mcp

/-!
## Who listens to a child, and which child runs

When, whatever the order of events, a quiet bridge has a child running for the plugins with a live
listener and for no others, serves every listener whose channel is open, and lets a detach touch no
other listener. "A child is reaped when its last listener leaves",
`services/events-actix/src/mcp/bridge.rs:15`.
-/

namespace NullRouter.Mcp

open NullRouter.Base

namespace Bridge

/-- A bridge attends to its listeners: those whose channel is open have a live child whose output is
pumped to them, and a plugin's child runs just when the plugin has a live listener. -/
structure Attends (b : Bridge) : Prop where
  served : ∀ listener, b.Open listener → b.Served listener
  running : ∀ plugin, (∃ child ∈ b.children, child.plugin = plugin ∧ child.alive = true) ↔
    ∃ listener, b.Live plugin listener

/-- Between two states nothing changes for a listener. -/
def Unaffected (b b' : Bridge) (listener : Nat) : Prop :=
  (b.Open listener ↔ b'.Open listener) ∧ (b.Served listener ↔ b'.Served listener)

/-- An event that the bridge copes with: none attaches to a session whose pump has ended; none
detaches by an id that another listener of the session has; a client goes only once its listener
has detached or its channel is closed; and a pump does not end while its child runs. -/
def Copes (b : Bridge) : Event → Prop
  | .attach plugin _ => ∀ (session : Session) (child : Child),
    b.sessions plugin = some session → b.children[session.child]? = some child →
      child.pumping = true
  | .detach listener => ∀ (own : Listener) (session : Session) (child : Child),
    b.listeners[listener]? = some own → b.sessions own.plugin = some session →
      b.children[session.child]? = some child →
        ∀ sink ∈ child.sinks, sink.1 = own.id → sink.2 = listener
  | .disconnect listener => ¬ b.Open listener
  | .endPump child => ∀ own : Child, b.children[child]? = some own → own.alive = false
  | .exit _ | .killAll | .killed _ => True

/-- A step is an event in its turn. -/
def Step (b : Bridge) (event : Event) (b' : Bridge) : Prop := b' = b.act event

/-! ## What holds throughout -/

/-- What holds of a bridge that copes: a session has a child of its plugin that is not being killed,
with a listener while it is pumped; a child without a session is being killed or dead; what is not
pumped is dead and has no listeners; and a sender is of a listener whose client is there. -/
structure Tended (b : Bridge) : Prop where
  session : ∀ (plugin : String) (session : Session), b.sessions plugin = some session →
    ∃ child : Child, b.children[session.child]? = some child ∧ child.plugin = plugin ∧
      child.killing = false ∧ (child.pumping = true → child.sinks ≠ [])
  orphan : ∀ (place : Nat) (child : Child), b.children[place]? = some child →
    (∃ session, b.sessions child.plugin = some session ∧ session.child = place) ∨
      child.killing = true ∨ child.alive = false
  ended : ∀ (place : Nat) (child : Child), b.children[place]? = some child →
    child.pumping = false →
    child.alive = false ∧ child.sinks = []
  sinks : ∀ (place : Nat) (child : Child), b.children[place]? = some child → ∀ sink ∈ child.sinks,
    b.listeners[sink.2]? = some ⟨child.plugin, sink.1, place, false⟩

/-- A quiet bridge whose children and sessions are tended attends to its listeners. -/
theorem Tended.attends {b : Bridge} (h : b.Tended) (hquiet : b.Quiet) : b.Attends := by
  have hserved : ∀ listener, b.Open listener → b.Served listener := by
    rintro listener ⟨own, child, hown, hchild, hsink⟩
    have hpumping : child.pumping = true := by
      by_contra hend
      rw [(h.ended _ _ hchild (by simpa using hend)).2] at hsink
      cases hsink
    refine ⟨own, child, hown, hchild, hsink, ?_, hpumping⟩
    by_contra hdead
    have hend := (hquiet child (List.mem_of_getElem? hchild)).2 (by simpa using hdead)
    rw [hpumping] at hend
    cases hend
  refine ⟨hserved, fun plugin ↦ ⟨?_, ?_⟩⟩
  · rintro ⟨child, hmem, rfl, halive⟩
    obtain ⟨place, hplace⟩ := List.mem_iff_getElem?.mp hmem
    have hkilling := (hquiet child hmem).1
    rcases h.orphan place child hplace with ⟨session, hsession, rfl⟩ | hkill | hdead
    · obtain ⟨child', hchild', -, -, hsinks⟩ := h.session _ _ hsession
      obtain rfl : child = child' := Option.some.inj (hplace.symm.trans hchild')
      have hpumping : child.pumping = true := by
        by_contra hend
        rw [(h.ended _ _ hplace (by simpa using hend)).1] at halive
        cases halive
      obtain ⟨sink, hsink⟩ := List.exists_mem_of_ne_nil _ (hsinks hpumping)
      have hlistener := h.sinks _ _ hplace sink hsink
      exact ⟨sink.2, _, hlistener, rfl, rfl, _, child, hlistener, hplace, hsink⟩
    · rw [hkilling] at hkill
      cases hkill
    · rw [hdead] at halive
      cases halive
  · rintro ⟨listener, own, hown, rfl, -, hopen⟩
    obtain ⟨own', child, hown', hchild, hsink, halive, -⟩ := hserved listener hopen
    obtain rfl : own = own' := Option.some.inj (hown.symm.trans hown')
    refine ⟨child, List.mem_of_getElem? hchild, ?_, halive⟩
    have hlistener := h.sinks _ _ hchild _ hsink
    rw [hown] at hlistener
    exact (congrArg Listener.plugin (Option.some.inj hlistener)).symm

namespace Tended

variable {b : Bridge}

/-- What holds is kept where each child keeps its plugin, listeners and session, or is dead or being
killed, and no listener of a sender changes. -/
private theorem of_modify (h : b.Tended) (place : Nat) (f : Child → Child)
    (hplugin : ∀ child, (f child).plugin = child.plugin)
    (hsinks : ∀ child, (f child).sinks ⊆ child.sinks)
    (hsession : ∀ child, b.children[place]? = some child →
      ∀ session, b.sessions child.plugin = some session → session.child = place →
        (f child).killing = false ∧ ((f child).pumping = true → (f child).sinks ≠ []))
    (horphan : ∀ child, b.children[place]? = some child → (child.killing = true ∨
      child.alive = false) → (f child).killing = true ∨ (f child).alive = false)
    (hended : ∀ child, b.children[place]? = some child → (f child).pumping = false →
      (f child).alive = false ∧ (f child).sinks = []) :
    Tended { b with children := b.children.modify place f } := by
  refine ⟨?_, ?_, ?_, ?_⟩
  · intro plugin session hs
    obtain ⟨child, hchild, rfl, hkilling, hne⟩ := h.session plugin session hs
    refine ⟨if place = session.child then f child else child, ?_, ?_, ?_⟩
    · exact getElem?_modify_eq_some.mpr ⟨child, hchild, rfl⟩
    · split
      · exact hplugin child
      · rfl
    · split
      · next hplace =>
        subst hplace
        exact hsession child hchild session hs rfl
      · exact ⟨hkilling, hne⟩
  · intro c child' hc
    obtain ⟨child, hchild, rfl⟩ := getElem?_modify_eq_some.mp hc
    have hold := h.orphan c child hchild
    split
    · next hplace =>
      subst hplace
      rw [hplugin]
      exact hold.imp_right (horphan child hchild)
    · exact hold
  · intro c child' hc
    obtain ⟨child, hchild, rfl⟩ := getElem?_modify_eq_some.mp hc
    split
    · next hplace =>
      subst hplace
      exact hended child hchild
    · exact h.ended c child hchild
  · intro c child' hc sink hsink
    obtain ⟨child, hchild, rfl⟩ := getElem?_modify_eq_some.mp hc
    split at hsink
    · next hplace =>
      rw [if_pos hplace, hplugin]
      exact h.sinks c child hchild sink (hsinks child hsink)
    · next hplace =>
      rw [if_neg hplace]
      exact h.sinks c child hchild sink hsink

private theorem exit (h : b.Tended) (child : Nat) : (b.act (.exit child)).Tended := by
  apply h.of_modify child (fun own ↦ { own with alive := false })
  · exact fun _ ↦ rfl
  · exact fun _ ↦ List.Subset.refl _
  · intro own hown session hsession hplace
    obtain ⟨own', hown', -, hkilling, hne⟩ := h.session _ _ hsession
    rw [hplace, hown] at hown'
    obtain rfl := Option.some.inj hown'
    exact ⟨hkilling, hne⟩
  · exact fun _ _ _ ↦ Or.inr rfl
  · exact fun own hown hend ↦ ⟨rfl, (h.ended _ own hown hend).2⟩

private theorem endPump (h : b.Tended) {child : Nat} (hcopes : b.Copes (.endPump child)) :
    (b.act (.endPump child)).Tended := by
  apply h.of_modify child Child.endPump
  · exact fun _ ↦ rfl
  · exact fun _ ↦ List.nil_subset _
  · intro own hown session hsession hplace
    obtain ⟨own', hown', -, hkilling, -⟩ := h.session _ _ hsession
    rw [hplace, hown] at hown'
    obtain rfl := Option.some.inj hown'
    exact ⟨hkilling, fun hpumping ↦ by cases hpumping⟩
  · exact fun own hown _ ↦ Or.inr (hcopes own hown)
  · exact fun own hown _ ↦ ⟨hcopes own hown, rfl⟩

private theorem killed (h : b.Tended) (child : Nat) : (b.act (.killed child)).Tended := by
  apply h.of_modify child (fun own ↦ if own.killing = true then own.reap else own)
  · intro own
    split <;> rfl
  · intro own
    split
    · unfold Child.reap
      split
      · exact List.Subset.refl _
      · exact List.nil_subset _
    · exact List.Subset.refl _
  · intro own hown session hsession hplace
    obtain ⟨own', hown', -, hkilling, hne⟩ := h.session _ _ hsession
    rw [hplace, hown] at hown'
    obtain rfl := Option.some.inj hown'
    rw [if_neg (by simp [hkilling])]
    exact ⟨hkilling, hne⟩
  · intro own _ hold
    split
    · exact Or.inr rfl
    · exact hold
  · intro own hown hend
    split at hend
    · next hkilling =>
      rw [if_pos hkilling]
      exact ⟨rfl, if_neg (by simpa [Child.reap] using hend)⟩
    · next hkilling =>
      rw [if_neg hkilling]
      exact h.ended _ own hown hend

private theorem disconnect (h : b.Tended) {listener : Nat}
    (hcopes : b.Copes (.disconnect listener)) : (b.act (.disconnect listener)).Tended := by
  refine ⟨h.session, h.orphan, h.ended, ?_⟩
  intro place child hchild sink hsink
  have hown := h.sinks place child hchild sink hsink
  refine getElem?_modify_eq_some.mpr ⟨_, hown, if_neg ?_⟩
  rintro rfl
  exact hcopes ⟨_, child, hown, hchild, hsink⟩

private theorem killAll (h : b.Tended) : (b.act .killAll).Tended := by
  have hchild : ∀ place child', (b.act .killAll).children[place]? = some child' →
      ∃ child, b.children[place]? = some child ∧
        (if b.holds place child = true then { child with killing := true } else child) = child' := by
    intro place child' hplace
    have hmap : (b.children.mapIdx fun place child ↦
      if b.holds place child then { child with killing := true } else child)[place]? =
        some child' := hplace
    rw [List.getElem?_mapIdx] at hmap
    exact Option.map_eq_some_iff.mp hmap
  refine ⟨?_, ?_, ?_, ?_⟩
  · intro plugin session hsession
    cases hsession
  · intro place child' hplace
    obtain ⟨child, hold, rfl⟩ := hchild place child' hplace
    right
    split
    · exact Or.inl rfl
    · next hheld =>
      rcases h.orphan place child hold with ⟨session, hsession, hplace⟩ | hgone
      · rw [Bridge.holds, hsession] at hheld
        simp [hplace] at hheld
      · exact hgone
  · intro place child' hplace
    obtain ⟨child, hold, rfl⟩ := hchild place child' hplace
    intro hend
    have hend' : child.pumping = false := by
      split at hend
      · exact hend
      · exact hend
    have hwas := h.ended place child hold hend'
    split
    · exact hwas
    · exact hwas
  · intro place child' hplace sink hsink
    obtain ⟨child, hold, rfl⟩ := hchild place child' hplace
    have hsink' : sink ∈ child.sinks := by
      split at hsink
      · exact hsink
      · exact hsink
    have hwas := h.sinks place child hold sink hsink'
    split
    · exact hwas
    · exact hwas

private theorem getElem?_append_of_some {α : Type} {l : List α} {i : Nat} {a : α}
    (h : l[i]? = some a) (l' : List α) : (l ++ l')[i]? = some a := by
  obtain ⟨hlt, -⟩ := List.getElem?_eq_some_iff.mp h
  rw [List.getElem?_append_left hlt, h]

private theorem join {plugin : String} {session : Session} {child : Child}
    (hchild : b.children[session.child]? = some child) (hplugin : child.plugin = plugin)
    (hkilling : child.killing = false) (hpumping : child.pumping = true)
    (hsame : ∀ other, b.sessions plugin = some other → other.child = session.child)
    (hsession : ∀ (plugin : String) (session : Session), b.sessions plugin = some session →
      ∃ child : Child, b.children[session.child]? = some child ∧ child.plugin = plugin ∧
        child.killing = false ∧ (child.pumping = true → child.sinks ≠ []))
    (horphan : ∀ (place : Nat) (child : Child), b.children[place]? = some child →
      place ≠ session.child →
        (∃ session, b.sessions child.plugin = some session ∧ session.child = place) ∨
          child.killing = true ∨ child.alive = false)
    (hended : ∀ (place : Nat) (child : Child), b.children[place]? = some child →
      child.pumping = false → child.alive = false ∧ child.sinks = [])
    (hsinks : ∀ (place : Nat) (child : Child), b.children[place]? = some child →
      ∀ sink ∈ child.sinks,
        b.listeners[sink.2]? = some ⟨child.plugin, sink.1, place, false⟩) :
    (b.join plugin session).Tended := by
  refine ⟨?_, ?_, ?_, ?_⟩
  · intro other session' hs
    have hs : Function.update b.sessions plugin _ other = some session' := hs
    by_cases hother : other = plugin
    · subst hother
      rw [Function.update_self] at hs
      obtain rfl := Option.some.inj hs
      refine ⟨_, getElem?_modify_eq_some.mpr ⟨child, hchild, if_pos rfl⟩, hplugin, hkilling, ?_⟩
      intro _
      simp [Child.listen]
    · rw [Function.update_of_ne hother] at hs
      obtain ⟨own, hown, rfl, hrest⟩ := hsession other session' hs
      refine ⟨own, getElem?_modify_eq_some.mpr ⟨own, hown, if_neg ?_⟩, rfl, hrest⟩
      intro hplace
      rw [← hplace, hchild] at hown
      obtain rfl := Option.some.inj hown
      exact hother hplugin
  · intro place child' hplace
    obtain ⟨own, hown, rfl⟩ := getElem?_modify_eq_some.mp hplace
    split
    · next heq =>
      left
      rw [← heq, hchild] at hown
      obtain rfl := Option.some.inj hown
      refine ⟨⟨session.child, (session.nextListenerId + 1) % 2 ^ 64⟩, ?_, heq⟩
      change Function.update b.sessions plugin _ child.plugin = _
      rw [hplugin, Function.update_self]
    · next hne =>
      rcases horphan place own hown (Ne.symm hne) with ⟨session', hs, hplace⟩ | hgone
      · left
        refine ⟨session', ?_, hplace⟩
        change Function.update b.sessions plugin _ own.plugin = _
        rw [Function.update_of_ne, hs]
        intro hown
        rw [hown] at hs
        exact hne ((hsame session' hs).symm.trans hplace)
      · exact Or.inr hgone
  · intro place child' hplace
    obtain ⟨own, hown, rfl⟩ := getElem?_modify_eq_some.mp hplace
    split
    · next heq =>
      rw [← heq, hchild] at hown
      obtain rfl := Option.some.inj hown
      intro hend
      rw [show (child.listen _ _).pumping = child.pumping from rfl, hpumping] at hend
      cases hend
    · exact hended place own hown
  · intro place child' hplace sink hsink
    obtain ⟨own, hown, rfl⟩ := getElem?_modify_eq_some.mp hplace
    split at hsink
    · next heq =>
      rw [if_pos heq]
      rcases List.mem_append.mp hsink with hold | hnew
      · exact getElem?_append_of_some (hsinks place own hown sink (List.mem_filter.mp hold).1) _
      · obtain rfl := List.mem_singleton.mp hnew
        rw [← heq, hchild] at hown
        obtain rfl := Option.some.inj hown
        subst hplugin heq
        exact List.getElem?_concat_length
    · next hne =>
      rw [if_neg hne]
      exact getElem?_append_of_some (hsinks place own hown sink hsink) _

private theorem attach (h : b.Tended) {plugin : String} {starts : Bool}
    (hcopes : b.Copes (.attach plugin starts)) : (b.attach plugin starts).Tended := by
  unfold Bridge.attach
  split
  · next session hsession =>
    obtain ⟨child, hchild, hplugin, hkilling, -⟩ := h.session plugin session hsession
    refine join hchild hplugin hkilling (hcopes session child hsession hchild) ?_ h.session
      (fun place child hplace _ ↦ h.orphan place child hplace) h.ended h.sinks
    intro other hother
    rw [hsession] at hother
    rw [Option.some.inj hother]
  · next hnone =>
    split
    · -- The child is new: the others stand where they stood.
      have hplace : ∀ place child, (b.spawn plugin).children[place]? = some child →
          place ≠ b.children.length → b.children[place]? = some child := by
        intro place child hplace hne
        have hlt : place < b.children.length := by
          obtain ⟨hlt, -⟩ := List.getElem?_eq_some_iff.mp hplace
          rw [Bridge.spawn, List.length_append, List.length_singleton] at hlt
          omega
        rwa [Bridge.spawn, List.getElem?_append_left hlt] at hplace
      have hnew : (b.spawn plugin).children[b.children.length]? = some { plugin := plugin } :=
        List.getElem?_concat_length
      refine join hnew rfl rfl rfl ?_ ?_ ?_ ?_ ?_
      · intro other hother
        rw [show (b.spawn plugin).sessions plugin = b.sessions plugin from rfl, hnone] at hother
        cases hother
      · intro other session hsession
        obtain ⟨child, hchild, hrest⟩ := h.session other session hsession
        exact ⟨child, getElem?_append_of_some hchild _, hrest⟩
      · exact fun place child hchild hne ↦ h.orphan place child (hplace place child hchild hne)
      · intro place child hchild hend
        by_cases hne : place = b.children.length
        · rw [hne, hnew] at hchild
          obtain rfl := Option.some.inj hchild
          cases hend
        · exact h.ended place child (hplace place child hchild hne) hend
      · intro place child hchild sink hsink
        by_cases hne : place = b.children.length
        · rw [hne, hnew] at hchild
          obtain rfl := Option.some.inj hchild
          cases hsink
        · exact h.sinks place child (hplace place child hchild hne) sink hsink
    · exact h

/-- A detach takes the sender of its id out of the session's child, and if it was the last, the
session, and the child is killed. -/
private theorem detach_cases (h : b.Tended) (plugin : String) (id : Nat) :
    b.detach plugin id = b ∨ ∃ session child, b.sessions plugin = some session ∧
      b.children[session.child]? = some child ∧
      (((child.leave id).sinks ≠ [] ∧ b.detach plugin id =
        { b with children := b.children.modify session.child (·.leave id) }) ∨
      ((child.leave id).sinks = [] ∧ b.detach plugin id =
        { b with
          sessions := Function.update b.sessions plugin none
          children := b.children.modify session.child fun child ↦ (child.leave id).reap })) := by
  cases hsession : b.sessions plugin with
  | none =>
    left
    simp only [Bridge.detach, hsession]
  | some session =>
    right
    obtain ⟨child, hchild, -⟩ := h.session plugin session hsession
    refine ⟨session, child, rfl, hchild, ?_⟩
    simp only [Bridge.detach, hsession, hchild, Option.any_some]
    by_cases hempty : (child.leave id).sinks = []
    · right
      rw [if_neg (by simp [hempty])]
      exact ⟨hempty, rfl⟩
    · left
      rw [if_pos (by simp [hempty])]
      exact ⟨hempty, rfl⟩

private theorem detach (h : b.Tended) (plugin : String) (id : Nat) :
    (b.detach plugin id).Tended := by
  rcases h.detach_cases plugin id with hsame | ⟨session, child, hsession, hchild, hcases⟩
  · rw [hsame]
    exact h
  · rcases hcases with ⟨hne, heq⟩ | ⟨hempty, heq⟩
    · rw [heq]
      apply h.of_modify session.child (·.leave id)
      · exact fun _ ↦ rfl
      · exact fun _ ↦ List.filter_subset_self _
      · intro own hown session' hs hplace
        rw [hchild] at hown
        obtain rfl := Option.some.inj hown
        obtain ⟨own', hown', -, hkilling, -⟩ := h.session _ _ hs
        rw [hplace, hchild] at hown'
        obtain rfl := Option.some.inj hown'
        exact ⟨hkilling, fun _ ↦ hne⟩
      · exact fun _ _ hold ↦ hold
      · intro own hown hend
        obtain ⟨hdead, hnone⟩ := h.ended _ own hown hend
        refine ⟨hdead, ?_⟩
        change own.sinks.filter _ = []
        rw [hnone]
        rfl
    · obtain ⟨own, hown, hplugin, -⟩ := h.session plugin session hsession
      rw [hchild] at hown
      obtain rfl := Option.some.inj hown
      rw [heq]
      refine ⟨?_, ?_, ?_, ?_⟩
      · intro other session' hs
        have hs : Function.update b.sessions plugin none other = some session' := hs
        by_cases hother : other = plugin
        · rw [hother, Function.update_self] at hs
          cases hs
        · rw [Function.update_of_ne hother] at hs
          obtain ⟨own, hown, rfl, hrest⟩ := h.session other session' hs
          refine ⟨own, getElem?_modify_eq_some.mpr ⟨own, hown, if_neg ?_⟩, rfl, hrest⟩
          intro hplace
          rw [← hplace, hchild] at hown
          obtain rfl := Option.some.inj hown
          exact hother hplugin
      · intro place child' hplace
        obtain ⟨own, hown, rfl⟩ := getElem?_modify_eq_some.mp hplace
        split
        · exact Or.inr (Or.inr rfl)
        · next hne =>
          refine (h.orphan place own hown).imp_left ?_
          rintro ⟨session', hs, hplace⟩
          refine ⟨session', ?_, hplace⟩
          change Function.update b.sessions plugin none own.plugin = _
          rw [Function.update_of_ne, hs]
          intro hown
          rw [hown, hsession] at hs
          obtain rfl := Option.some.inj hs
          exact hne hplace
      · intro place child' hplace
        obtain ⟨own, hown, rfl⟩ := getElem?_modify_eq_some.mp hplace
        split
        · next heq =>
          rw [← heq, hchild] at hown
          obtain rfl := Option.some.inj hown
          intro _
          refine ⟨rfl, ?_⟩
          simp [Child.reap, hempty]
        · exact h.ended place own hown
      · intro place child' hplace sink hsink
        obtain ⟨own, hown, rfl⟩ := getElem?_modify_eq_some.mp hplace
        split at hsink
        · next heq =>
          rw [← heq, hchild] at hown
          obtain rfl := Option.some.inj hown
          simp [Child.reap, hempty] at hsink
        · next hne =>
          rw [if_neg hne]
          exact h.sinks place own hown sink hsink

/-- Every step that the bridge copes with keeps it. -/
theorem step (h : b.Tended) {event : Event} {b' : Bridge} (hcopes : b.Copes event)
    (hstep : Step b event b') : b'.Tended := by
  rw [hstep]
  cases event with
  | attach plugin starts => exact h.attach hcopes
  | detach listener =>
    cases hown : b.listeners[listener]? with
    | none =>
      simp only [act, hown]
      exact h
    | some own =>
      simp only [act, hown]
      exact h.detach _ _
  | disconnect listener => exact h.disconnect hcopes
  | exit child => exact h.exit child
  | endPump child => exact h.endPump hcopes
  | killAll => exact h.killAll
  | killed child => exact h.killed child

private theorem unaffected_of_modify (b : Bridge) (sessions : String → Option Session)
    (place : Nat) (f : Child → Child) (listener : Nat)
    (hf : ∀ child, b.children[place]? = some child → ∀ id,
      ((id, listener) ∈ (f child).sinks ↔ (id, listener) ∈ child.sinks) ∧
      ((id, listener) ∈ child.sinks →
        (f child).alive = child.alive ∧ (f child).pumping = child.pumping)) :
    Unaffected b ⟨sessions, b.children.modify place f, b.listeners⟩ listener := by
  have hnew : ∀ (own : Listener) (child : Child), b.children[own.child]? = some child →
      ∃ child', (b.children.modify place f)[own.child]? = some child' ∧
        ((own.id, listener) ∈ child'.sinks ↔ (own.id, listener) ∈ child.sinks) ∧
        ((own.id, listener) ∈ child.sinks →
          child'.alive = child.alive ∧ child'.pumping = child.pumping) := by
    intro own child hchild
    refine ⟨_, getElem?_modify_eq_some.mpr ⟨child, hchild, rfl⟩, ?_⟩
    split
    · next hplace =>
      subst hplace
      exact hf child hchild own.id
    · exact ⟨Iff.rfl, fun _ ↦ ⟨rfl, rfl⟩⟩
  -- A child after the change is what it was changed to.
  have hback : ∀ (own : Listener) (child' : Child),
      (b.children.modify place f)[own.child]? = some child' →
      ∃ child, b.children[own.child]? = some child ∧
        ((own.id, listener) ∈ child'.sinks ↔ (own.id, listener) ∈ child.sinks) ∧
        ((own.id, listener) ∈ child.sinks →
          child'.alive = child.alive ∧ child'.pumping = child.pumping) := by
    intro own child' hchild'
    obtain ⟨child, hchild, -⟩ := getElem?_modify_eq_some.mp hchild'
    obtain ⟨other, hother, hsame⟩ := hnew own child hchild
    rw [hchild'] at hother
    obtain rfl := Option.some.inj hother
    exact ⟨child, hchild, hsame⟩
  refine ⟨⟨?_, ?_⟩, ⟨?_, ?_⟩⟩
  · rintro ⟨own, child, hown, hchild, hsink⟩
    obtain ⟨child', hchild', hsinks, -⟩ := hnew own child hchild
    exact ⟨own, child', hown, hchild', hsinks.mpr hsink⟩
  · rintro ⟨own, child', hown, hchild', hsink⟩
    obtain ⟨child, hchild, hsinks, -⟩ := hback own child' hchild'
    exact ⟨own, child, hown, hchild, hsinks.mp hsink⟩
  · rintro ⟨own, child, hown, hchild, hsink, halive, hpumping⟩
    obtain ⟨child', hchild', hsinks, hkept⟩ := hnew own child hchild
    obtain ⟨ha, hp⟩ := hkept hsink
    exact ⟨own, child', hown, hchild', hsinks.mpr hsink, ha.trans halive, hp.trans hpumping⟩
  · rintro ⟨own, child', hown, hchild', hsink, halive, hpumping⟩
    obtain ⟨child, hchild, hsinks, hkept⟩ := hback own child' hchild'
    obtain ⟨ha, hp⟩ := hkept (hsinks.mp hsink)
    exact ⟨own, child, hown, hchild, hsinks.mp hsink, ha.symm.trans halive, hp.symm.trans hpumping⟩

private theorem mem_leave {child : Child} {id id' listener : Nat}
    (h : (id', listener) ∈ child.sinks → id' ≠ id) :
    (id', listener) ∈ (child.leave id).sinks ↔ (id', listener) ∈ child.sinks := by
  rw [Child.leave, List.mem_filter]
  constructor
  · exact And.left
  · intro hmem
    exact ⟨hmem, by simpa using h hmem⟩

/-- A detach that the bridge copes with leaves the other listeners alone. -/
theorem unaffected_of_detach (h : b.Tended) {listener other : Nat}
    (hcopes : b.Copes (.detach listener)) (hother : other ≠ listener) :
    Unaffected b (b.act (.detach listener)) other := by
  cases hown : b.listeners[listener]? with
  | none =>
    simp only [act, hown]
    exact ⟨Iff.rfl, Iff.rfl⟩
  | some own =>
    simp only [act, hown]
    rcases h.detach_cases own.plugin own.id with hsame | ⟨session, child, hsession, hchild, hcases⟩
    · rw [hsame]
      exact ⟨Iff.rfl, Iff.rfl⟩
    · have hid : ∀ id, (id, other) ∈ child.sinks → id ≠ own.id := by
        rintro id hsink rfl
        exact hother (hcopes own session child hown hsession hchild _ hsink rfl)
      rcases hcases with ⟨-, heq⟩ | ⟨hempty, heq⟩
      · rw [heq]
        apply unaffected_of_modify b b.sessions
        intro child' hchild' id
        rw [hchild] at hchild'
        obtain rfl := Option.some.inj hchild'
        exact ⟨mem_leave (hid id), fun _ ↦ ⟨rfl, rfl⟩⟩
      · rw [heq]
        apply unaffected_of_modify b
        intro child' hchild' id
        rw [hchild] at hchild'
        obtain rfl := Option.some.inj hchild'
        have hnone : ¬ (id, other) ∈ child.sinks := by
          rw [← mem_leave (hid id), hempty]
          exact List.not_mem_nil
        refine ⟨?_, fun hsink ↦ absurd hsink hnone⟩
        simp [Child.reap, hempty, hnone]

end Tended

/-! ## Every run -/

private theorem tended_start : ({} : Bridge).Tended := by
  refine ⟨?_, ?_, ?_, ?_⟩
  · intro plugin session hsession
    cases hsession
  · intro place child hchild
    simp at hchild
  · intro place child hchild
    simp at hchild
  · intro place child hchild
    simp at hchild

/-- In every run of events that the bridge copes with, a quiet bridge attends to its listeners, and
a detach touches no other listener than its own. -/
theorem attends_of_run {events : List Event} {b : Bridge}
    (h : Run (Guarded Copes Step) {} events b) :
    (b.Quiet → b.Attends) ∧ ∀ listener, b.Copes (.detach listener) →
      ∀ other, other ≠ listener → Unaffected b (b.act (.detach listener)) other := by
  have htended : b.Tended :=
    h.invariant Tended (fun _ _ _ htended hstep ↦ htended.step hstep.1 hstep.2) tended_start
  exact ⟨htended.attends, fun _ hcopes _ hother ↦ htended.unaffected_of_detach hcopes hother⟩

/-- After a listener that attached and detached, the bridge attends. -/
theorem attends_after_visit : (after [.attach "p" true, .detach 0, .endPump 0]).Attends := by
  have hrun : Run (Guarded Copes Step) {} [.attach "p" true, .detach 0, .endPump 0]
      (after [.attach "p" true, .detach 0, .endPump 0]) := by
    refine .cons ⟨?_, rfl⟩ (.cons ⟨?_, rfl⟩ (.cons ⟨?_, rfl⟩ (.nil _)))
    · intro session child hsession
      cases hsession
    · intro own session child hown hsession hchild sink hsink _
      obtain rfl := Option.some.inj
        (show some (⟨0, 1⟩ : Session) = some session by rw [← hsession]; cases hown; rfl)
      obtain rfl := Option.some.inj
        (show some (⟨"p", true, false, true, [(0, 0)]⟩ : Child) = some child from hchild)
      rw [List.mem_singleton.mp hsink]
    · intro own hown
      obtain rfl := Option.some.inj hown
      rfl
  refine (attends_of_run hrun).1 ?_
  unfold Quiet
  decide

/-- A client that goes leaves a child running that nobody listens to; a listener that attaches after
the child has exited waits at a dead child; and a detach that comes again takes the listener of
another child away. -/
theorem left_alone :
    ((after [.attach "p" true, .disconnect 0]).Quiet ∧
      ¬ (after [.attach "p" true, .disconnect 0]).Attends) ∧
    ((after [.attach "p" true, .exit 0, .endPump 0, .attach "p" true]).Quiet ∧
      ¬ (after [.attach "p" true, .exit 0, .endPump 0, .attach "p" true]).Attends) ∧
    ¬ Unaffected (after [.attach "p" true, .detach 0, .attach "p" true])
      (after [.attach "p" true, .detach 0, .attach "p" true, .detach 0]) 1 := by
  refine ⟨⟨?_, ?_⟩, ⟨?_, ?_⟩, ?_⟩
  · unfold Quiet
    decide
  · intro h
    obtain ⟨listener, own, hown, -, hgone, -⟩ :=
      (h.running "p").mp ⟨⟨"p", true, false, true, [(0, 0)]⟩, by decide, rfl, rfl⟩
    have hmem : own ∈ [(⟨"p", 0, 0, true⟩ : Listener)] := List.mem_of_getElem? hown
    rw [List.mem_singleton.mp hmem] at hgone
    cases hgone
  · unfold Quiet
    decide
  · intro h
    obtain ⟨own, child, hown, hchild, -, halive, -⟩ :=
      h.served 1 ⟨⟨"p", 1, 0, false⟩, ⟨"p", false, false, false, [(1, 1)]⟩, rfl, rfl, by decide⟩
    cases hown
    cases hchild
    cases halive
  · intro h
    obtain ⟨own, child, hown, hchild, hsink⟩ := h.1.mp
      ⟨⟨"p", 0, 1, false⟩, ⟨"p", true, false, true, [(0, 1)]⟩, rfl, rfl, by decide⟩
    cases hown
    cases hchild
    cases hsink

end Bridge
end NullRouter.Mcp
