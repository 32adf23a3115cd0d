import Slim.Forwarder
import Slim.Lib.Run

/-!
# The cached gateway among concurrent writers

The connection table and the cache of the default gateway have locks of their own: a writer changes
the table in one step and invalidates the cache in a later one, while `resolve` scans the table and
stores what it found under the lock of the cache. `GatewayPc` is where an operation stands; one
that waits for the lock stays where it is.

`cache_coherent`: a scan may be outdated by the time it is stored, but then the writer that outdated
it has yet to invalidate the cache.
-/

namespace Slim

inductive GatewayOperation
  | establish (connection : Connection) (id : ConnId)
  | drop (conn : ConnId)
  | changeType (conn : ConnId) (ct : ConnType)
  | setEnabled (enabled : Bool)
  | resolve

inductive GatewayPc
  | start (op : GatewayOperation)
  /-- The table is changed, the cache not yet invalidated. -/
  | invalidate
  /-- `resolve`, without a pinned gateway. -/
  | enabled
  | lock
  /-- With the lock, the cache being dirty. -/
  | scan
  | store (g : Gateway)
  | done

structure GatewayCache where
  forwarder : Forwarder := {}
  operations : List GatewayPc := []

namespace GatewayCache

inductive Action
  | begin (op : GatewayOperation)
  | step (i : Nat)

/-- Some operation holds the lock of the cache. -/
def locked (s : GatewayCache) : Bool :=
  s.operations.any fun
    | .scan | .store _ => true
    | _ => false

/-- Some writer is between its change of the table and its `invalidate`. -/
def Pending (s : GatewayCache) : Prop := .invalidate ∈ s.operations

/-- What a scan of the Edge connections gives. -/
def scanned (edges : List ConnId) : Gateway :=
  match edges with
  | [] => .Empty
  | [id] => .Some id .Auto
  | edges => .Ambiguous edges.length

def setTable (f : Forwarder) (t : ConnectionTable) : Forwarder := { f with connectionTable := t }

def setCache (f : Forwarder) (g : Gateway) : Forwarder :=
  { f with defaultGateway := { f.defaultGateway with cache := g } }

def advance (locked : Bool) (f : Forwarder) : GatewayPc → Forwarder × GatewayPc
  | .start (.establish connection id) =>
    (setTable f (f.connectionTable.insert id connection), .invalidate)
  | .start (.drop conn) => (setTable f (f.connectionTable.erase conn), .invalidate)
  | .start (.changeType conn ct) =>
    match f.connectionTable.lookup conn with
    | none => (f, .invalidate)
    | some c =>
        (setTable f (f.connectionTable.insert conn { c with connectionType := ct }), .invalidate)
  | .start (.setEnabled enabled) => (f.setDefaultGatewayEnabled enabled, .done)
  | .start .resolve => (f, if f.defaultGateway.explicit.isSome then .done else .enabled)
  | .invalidate => if locked then (f, .invalidate) else (setCache f .Dirty, .done)
  | .enabled => (f, if f.defaultGateway.enabled then .lock else .done)
  | .lock =>
    if locked then (f, .lock) else (f, if f.defaultGateway.cache = .Dirty then .scan else .done)
  | .scan => (f, .store (scanned f.edgeConnIds))
  | .store g => (setCache f g, .done)
  | .done => (f, .done)

def step (s : GatewayCache) : Action → GatewayCache
  | .begin op => { s with operations := s.operations ++ [.start op] }
  | .step i =>
    match s.operations[i]? with
    | none => s
    | some pc =>
      let (f, pc) := advance s.locked s.forwarder pc
      ⟨f, s.operations.set i pc⟩

def run (actions : List Action) : GatewayCache := actions.foldl step {}

/-- The cache is dirty or what a scan would give, unless a writer has yet to invalidate it. -/
def Coherent (s : GatewayCache) : Prop :=
  s.Pending ∨ s.forwarder.defaultGateway.cache = .Dirty ∨
    s.forwarder.defaultGateway.cache = scanned s.forwarder.edgeConnIds

/-- The invariant: the same holds of what is about to be stored. -/
def Inv (s : GatewayCache) : Prop :=
  s.Pending ∨ (s.forwarder.defaultGateway.cache = .Dirty ∨
      s.forwarder.defaultGateway.cache = scanned s.forwarder.edgeConnIds) ∧
    ∀ g, .store g ∈ s.operations → g = scanned s.forwarder.edgeConnIds

variable {s : GatewayCache} {i : Nat} {pc pc' : GatewayPc} {f : Forwarder}

theorem Inv.coherent (h : s.Inv) : s.Coherent := h.imp id And.left

theorem pending_set (hi : s.operations[i]? = some pc) (hne : pc ≠ .invalidate) (h : s.Pending) :
    Pending ⟨f, s.operations.set i pc'⟩ := by
  obtain ⟨j, hj⟩ := List.mem_iff_getElem?.mp h
  have hij : i ≠ j := fun he => hne (Option.some.inj ((he ▸ hi).symm.trans hj))
  exact List.mem_iff_getElem?.mpr ⟨j, by rw [List.getElem?_set_ne hij, hj]⟩

/-- A writer's change: it has yet to invalidate the cache. -/
theorem pending_of_set (hi : s.operations[i]? = some pc) :
    Pending ⟨f, s.operations.set i .invalidate⟩ :=
  List.mem_set (List.getElem?_eq_some_iff.mp hi).1 _

/-- A step that stores nothing and leaves the table and the cache alone. -/
theorem Inv.quiet (h : s.Inv) (hi : s.operations[i]? = some pc) (hne : pc ≠ .invalidate)
    (hcache : f.defaultGateway.cache = s.forwarder.defaultGateway.cache)
    (htable : f.connectionTable = s.forwarder.connectionTable)
    (hstore : ∀ g, pc' = .store g → g = scanned s.forwarder.edgeConnIds) :
    Inv ⟨f, s.operations.set i pc'⟩ := by
  have hedges : f.edgeConnIds = s.forwarder.edgeConnIds := by
    unfold Forwarder.edgeConnIds
    rw [htable]
  refine h.imp (pending_set hi hne) fun ⟨hc, hs⟩ => ?_
  rw [hcache, hedges]
  refine ⟨hc, fun g hg => ?_⟩
  rcases List.mem_or_eq_of_mem_set hg with hg | hg
  · exact hs g hg
  · exact hstore g hg.symm

theorem not_store_of_unlocked (h : s.locked = false) (g : Gateway) :
    GatewayPc.store g ∉ s.operations := by
  intro hg
  unfold locked at h
  rw [List.any_eq_false] at h
  exact h _ hg rfl

theorem Inv.step (h : s.Inv) (a : Action) : (GatewayCache.step s a).Inv := by
  cases a with
  | begin op =>
    refine h.imp (List.mem_append_left _) fun ⟨hc, hs⟩ => ⟨hc, fun g hg => ?_⟩
    exact hs g ((List.mem_append.mp hg).resolve_right (by simp))
  | step i =>
    dsimp only [GatewayCache.step]
    cases hi : s.operations[i]? with
    | none => exact h
    | some pc =>
      cases pc with
      | start op =>
        cases op with
        | establish connection id => exact .inl (pending_of_set hi)
        | drop conn => exact .inl (pending_of_set hi)
        | changeType conn ct =>
          dsimp only [advance]
          split <;> exact .inl (pending_of_set hi)
        | setEnabled enabled => exact h.quiet hi (by simp) rfl rfl nofun
        | resolve =>
          exact h.quiet hi (by simp) rfl rfl fun g => by dsimp only [advance]; split <;> simp
      | invalidate =>
        dsimp only [advance]
        split
        · exact .inl (pending_of_set hi)
        · -- nobody holds the lock, so that no scan waits to be stored
          rename_i hfree
          refine .inr ⟨.inl rfl, fun g hg => ?_⟩
          rcases List.mem_or_eq_of_mem_set hg with hg | hg
          · exact absurd hg (not_store_of_unlocked (by simpa using hfree) g)
          · cases hg
      | enabled =>
        exact h.quiet hi (by simp) rfl rfl fun g => by dsimp only [advance]; split <;> simp
      | lock =>
        dsimp only [advance]
        split
        · exact h.quiet hi (by simp) rfl rfl (by simp)
        · exact h.quiet hi (by simp) rfl rfl (by intro g; split <;> simp)
      | scan =>
        refine h.quiet hi (by simp) rfl rfl fun g hg => ?_
        cases hg
        rfl
      | store g =>
        refine h.imp (pending_set hi (by simp)) fun ⟨_, hs⟩ => ?_
        refine ⟨.inr (hs g (List.mem_of_getElem? hi)), fun g' hg' => ?_⟩
        rcases List.mem_or_eq_of_mem_set hg' with hg' | hg'
        · exact hs g' hg'
        · cases hg'
      | done => exact h.quiet hi (by simp) rfl rfl nofun

/-- **The cached gateway is what a scan would give**, whatever the interleaving. -/
theorem cache_coherent (actions : List Action) : (run actions).Coherent := by
  have hinit : Inv {} := .inr ⟨.inl rfl, nofun⟩
  have h : (run actions).Inv := Run.invariant (fun _ a h => h.step a) hinit actions
  exact h.coherent

end GatewayCache

end Slim
