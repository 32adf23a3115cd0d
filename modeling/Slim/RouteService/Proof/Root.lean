import Slim.Db.Sqlite
import Slim.RouteService.Proof.Routes

/-!
# The root of a name

Two places choose the announcer that owns the tree of a name. `add_route` asks the store
(`getDestinationNodeIdForName`), which returns one of the oldest announcements; a full expansion
sorts the announcements by time and node and takes the first. They agree, in whatever order the
store lists its rows, if and only if the oldest announcements are of one node (`agree_iff_oldest`).
Nothing keeps two nodes from announcing a name at the same time, and SQLite stores whole seconds.
-/

namespace Slim.RouteService

open Db Table

variable {r : Route} {db : Database} {name : RouteName}

/-! ## The two choices -/

def expansionRoot (db : Database) (name : RouteName) : Option String :=
  ((sortAnnouncers (((db.getRoutesForNode ALL_NODES_ID).filter fun r => r.status ≠ .Deleted).filter
    fun r => r.name = name)).head?).map Route.destNodeId

/-- The announcements of the name that no other is older than. -/
def Oldest (db : Database) (name : RouteName) (r : Route) : Prop :=
  r ∈ db.announcements name ∧ ∀ x ∈ db.announcements name, r.createdAt ≤ x.createdAt

theorem expansionRoot_eq (db : Database) (name : RouteName) :
    expansionRoot db name =
      (sortAnnouncers (db.announcements name)).head?.map Route.destNodeId := by
  have hfilter : ((db.getRoutesForNode ALL_NODES_ID).filter fun r => r.status ≠ .Deleted).filter
      (fun r => r.name = name) = db.announcements name := by
    simp only [Database.getRoutesForNode, List.filter_filter]
    refine List.filter_congr fun r _ => ?_
    cases decide (r.sourceNodeId = ALL_NODES_ID) <;> cases decide (r.status ≠ .Deleted) <;>
      cases decide (r.name = name) <;> rfl
  rw [expansionRoot, hfilter]

instance : IsTrans Route announcedBefore where
  trans a b c hab hbc := by
    rcases hab with hab | ⟨hab, hab'⟩ <;> rcases hbc with hbc | ⟨hbc, hbc'⟩
    · exact .inl (hab.trans hbc)
    · exact .inl (by omega)
    · exact .inl (by omega)
    · exact .inr ⟨hab.trans hbc, String.le_trans hab' hbc'⟩

instance : Std.Total announcedBefore where
  total a b := by
    rcases lt_trichotomy a.createdAt b.createdAt with h | h | h
    · exact .inl (.inl h)
    · rcases String.le_total a.destNodeId b.destNodeId with h' | h'
      · exact .inl (.inr ⟨h, h'⟩)
      · exact .inr (.inr ⟨h.symm, h'⟩)
    · exact .inr (.inl h)

theorem head_sortAnnouncers {routes : List Route} (h : (sortAnnouncers routes).head? = some r) :
    r ∈ routes ∧ ∀ x ∈ routes, announcedBefore r x := by
  obtain ⟨rest, hrest⟩ : ∃ rest, sortAnnouncers routes = r :: rest := by
    cases hs : sortAnnouncers routes with
    | nil => simp [hs] at h
    | cons a rest => exact ⟨rest, by simpa [hs] using h⟩
  have hmem : ∀ x, x ∈ routes ↔ x = r ∨ x ∈ rest := by
    intro x
    rw [← List.mem_insertionSort announcedBefore, ← List.mem_cons, ← hrest]
    rfl
  have hsorted : List.Pairwise announcedBefore (r :: rest) := by
    rw [← hrest]
    exact List.pairwise_insertionSort announcedBefore routes
  refine ⟨(hmem r).mpr (.inl rfl), fun x hx => ?_⟩
  rcases (hmem x).mp hx with rfl | hx
  · exact .inr ⟨rfl, String.le_refl _⟩
  · exact List.rel_of_pairwise_cons hsorted hx

/-- If the oldest announcements are of one node, both take that node. -/
theorem agree_of_oldest
    (h : ∀ r r', Oldest db name r → Oldest db name r' → r.destNodeId = r'.destNodeId) :
    db.getDestinationNodeIdForName name = expansionRoot db name := by
  rw [expansionRoot_eq, Database.getDestinationNodeIdForName]
  cases hroot : (sortAnnouncers (db.announcements name)).head? with
  | none =>
    have hnil : db.announcements name = [] := by
      have hlen : (sortAnnouncers (db.announcements name)).length =
          (db.announcements name).length :=
        List.length_insertionSort announcedBefore (db.announcements name)
      rw [List.head?_eq_none_iff.mp hroot] at hlen
      exact List.length_eq_zero_iff.mp hlen.symm
    rw [hnil]
    rfl
  | some r =>
    obtain ⟨hr, hfirst⟩ := head_sortAnnouncers hroot
    have hroldest : Oldest db name r := by
      refine ⟨hr, fun x hx => ?_⟩
      rcases hfirst x hx with hlt | ⟨heq, -⟩
      · exact hlt.le
      · exact heq.le
    cases hmin : (db.announcements name).argmin Route.createdAt with
    | none => rw [List.argmin_eq_none.mp hmin] at hr; simp at hr
    | some m =>
      have hmoldest : Oldest db name m :=
        ⟨List.argmin_mem hmin, fun x hx => List.le_of_mem_argmin hx hmin⟩
      simp only [Option.map_some, Option.some.injEq]
      exact h m r hmoldest hroldest

theorem mem_announcements : r ∈ db.announcements name ↔
    r ∈ db.routes ∧ r.sourceNodeId = ALL_NODES_ID ∧ r.status ≠ .Deleted ∧ r.name = name :=
  mem_filter_relist.trans (by simp [and_assoc])

/-- The same rows, listed in another order. -/
def Relisted (db db' : Database) : Prop := db'.routes.rows.Perm db.routes.rows

theorem Relisted.oldest_iff {db' : Database} (h : Relisted db db') :
    Oldest db' name r ↔ Oldest db name r := by
  have hmem : ∀ x, x ∈ db'.announcements name ↔ x ∈ db.announcements name := fun x => by
    rw [mem_announcements, mem_announcements]
    exact and_congr_left' h.mem_iff
  simp [Oldest, hmem]

def listFirst (db : Database) (r : Route) (hr : r ∈ db.routes.rows) : Database :=
  { db with
    routeOrder := {}
    routes :=
      { rows := r :: db.routes.rows.erase r
        nodup := (((List.perm_cons_erase hr).map Route.id).nodup_iff).mp db.routes.nodup } }

theorem relisted_listFirst (db : Database) (hr : r ∈ db.routes.rows) :
    Relisted db (listFirst db r hr) :=
  (List.perm_cons_erase hr).symm

/-- The store returns an oldest announcement that it lists first. -/
theorem getDestinationNodeIdForName_listFirst (h : Oldest db name r) (hr : r ∈ db.routes.rows) :
    (listFirst db r hr).getDestinationNodeIdForName name = some r.destNodeId := by
  have hold := (relisted_listFirst db hr).oldest_iff.mpr h
  obtain ⟨rest, hrest⟩ : ∃ rest, (listFirst db r hr).announcements name = r :: rest :=
    ⟨_, List.filter_cons_of_pos (mem_filter_relist.mp h.1).2⟩
  rw [Database.getDestinationNodeIdForName, hrest, List.argmin_cons]
  cases hmin : rest.argmin Route.createdAt with
  | none => rfl
  | some m =>
    have hm : m ∈ (listFirst db r hr).announcements name := by
      rw [hrest]
      exact List.mem_cons_of_mem r (List.argmin_mem hmin)
    have hnot : ¬ m.createdAt < r.createdAt := Nat.not_lt.mpr (hold.2 m hm)
    simp [hnot]

theorem expansionRoot_le (h : Oldest db name r) {node : String}
    (hnode : expansionRoot db name = some node) : node ≤ r.destNodeId := by
  rw [expansionRoot_eq] at hnode
  obtain ⟨first, hfirst, rfl⟩ := Option.map_eq_some_iff.mp hnode
  obtain ⟨hmem, hbefore⟩ := head_sortAnnouncers hfirst
  rcases hbefore r h.1 with hlt | ⟨-, hle⟩
  · have := h.2 first hmem
    omega
  · exact hle

/-- The two choices agree in every order of the rows if and only if the oldest announcements are of
one node. -/
theorem agree_iff_oldest (db : Database) (name : RouteName) :
    (∀ db', Relisted db db' → db'.getDestinationNodeIdForName name = expansionRoot db' name) ↔
      ∀ r r', Oldest db name r → Oldest db name r' → r.destNodeId = r'.destNodeId := by
  constructor
  · intro h r r' hr hr'
    -- each of the two nodes is at most the other
    have hle : ∀ a b, Oldest db name a → Oldest db name b → a.destNodeId ≤ b.destNodeId := by
      intro a b ha hb
      have hrow : a ∈ db.routes.rows := (mem_filter_relist.mp ha.1).1
      have hagree := h (listFirst db a hrow) (relisted_listFirst db hrow)
      rw [getDestinationNodeIdForName_listFirst ha hrow] at hagree
      exact expansionRoot_le ((relisted_listFirst db hrow).oldest_iff.mpr hb) hagree.symm
    exact String.le_antisymm (hle r r' hr hr') (hle r' r hr' hr)
  · intro h db' hdb'
    refine agree_of_oldest fun r r' hr hr' => ?_
    exact h r r' (hdb'.oldest_iff.mp hr) (hdb'.oldest_iff.mp hr')

/-! ## Announcements -/

inductive Backend
  | inMemory
  | sqlite
  deriving DecidableEq, Repr

def Backend.addRoute (b : Backend) (db : Database) (now : Nat) (route : Route) : Update Route :=
  match b with
  | .inMemory => db.addRoute now route
  | .sqlite => Sqlite.addRoute db now route

structure Announcement where
  time : Nat
  nodeId : String
  domain : String
  name : RouteName
  deriving DecidableEq, Repr

/-- The wildcard route of an announcement is added, unless it is there. -/
def announce (b : Backend) (db : Database) (a : Announcement) : Database :=
  (b.addRoute db a.time
    { toDbRoute a.name ALL_NODES_ID ALL_NODES_ID a.nodeId a.domain with createdAt := a.time }).2

/-- The content after a sequence of announcements. -/
def announced (b : Backend) (announcements : List Announcement) : Database :=
  announcements.foldl (announce b) {}

/-- After any announcements, on either backend: the announcer that `add_route` takes as the root is
the one that a full expansion takes, in whatever order the rows are listed, if and only if the
oldest announcements of the name are of one node. -/
theorem roots_agree_iff (b : Backend) (announcements : List Announcement) (name : RouteName) :
    (∀ db, Relisted (announced b announcements) db →
        db.getDestinationNodeIdForName name = expansionRoot db name) ↔
      ∀ r r', Oldest (announced b announcements) name r → Oldest
        (announced b announcements) name r' → r.destNodeId = r'.destNodeId :=
  agree_iff_oldest (announced b announcements) name

/-- Two nodes announce a name half a second apart, and at the same time. -/
def sameSecond : Backend → List Announcement
  | .inMemory =>
    [⟨0, "node-b", "domain-b", ⟨"org", "ns", "svc", none⟩⟩,
      ⟨0, "node-a", "domain-a", ⟨"org", "ns", "svc", none⟩⟩]
  | .sqlite =>
    [⟨0, "node-b", "domain-b", ⟨"org", "ns", "svc", none⟩⟩,
      ⟨500000000, "node-a", "domain-a", ⟨"org", "ns", "svc", none⟩⟩]

/-- In some listing order, `add_route` takes one of them for the root and the expansion the
other. -/
def RootsDiffer (b : Backend) : Prop := ∃ db, Relisted (announced b (sameSecond b)) db ∧
  db.getDestinationNodeIdForName ⟨"org", "ns", "svc", none⟩ = some "node-b" ∧
  expansionRoot db ⟨"org", "ns", "svc", none⟩ = some "node-a"

theorem roots_differ_sameSecond : RootsDiffer .inMemory ∧ RootsDiffer .sqlite := by
  refine ⟨⟨announced _ (sameSecond _), List.Perm.refl _, ?_⟩,
    ⟨announced _ (sameSecond _), List.Perm.refl _, ?_⟩⟩
  · decide +kernel
  · decide +kernel

/-! ## The first announcer stays the root -/

/-- The announcement of `root` is older than the others of the name. -/
def Leads (db : Database) (name : RouteName) (root : String) : Prop :=
  ∃ first ∈ db.announcements name, first.destNodeId = root ∧
    ∀ x ∈ db.announcements name, x = first ∨ first.createdAt < x.createdAt

theorem Leads.query {root : String} (h : Leads db name root) :
    db.getDestinationNodeIdForName name = some root := by
  obtain ⟨first, hmem, rfl, hfirst⟩ := h
  rw [Database.getDestinationNodeIdForName]
  cases hmin : (db.announcements name).argmin Route.createdAt with
  | none =>
    rw [List.argmin_eq_none.mp hmin] at hmem
    simp at hmem
  | some m =>
    have hle : m.createdAt ≤ first.createdAt := List.le_of_mem_argmin hmem hmin
    rcases hfirst m (List.argmin_mem hmin) with rfl | hlt
    · rfl
    · omega

/-- Rows were created at ticks that are over. -/
def Timed (E : Env) (s : RouteService) : Prop :=
  ∀ x ∈ s.db.routes, ∃ t < s.ticks, x.createdAt = E.clock t

variable {E : Env} {routes : List Route} {s s' : RouteService} {root : String}

theorem Adds.timed (h : Adds E routes s s') (hs : Timed E s) : Timed E s' := by
  intro x hx
  rcases h.source x hx with hx | ⟨r, -, t, -, hlt, -, rfl⟩
  · obtain ⟨t, ht, heq⟩ := hs x hx
    exact ⟨t, ht.trans_le h.ticks_le, heq⟩
  · exact ⟨t, hlt, rfl⟩

theorem Adds.leads (h : Adds E routes s s') (hclock : StrictMono E.clock) (hs : Timed E s)
    (hroot : Leads s.db name root) : Leads s'.db name root := by
  obtain ⟨first, hmem, hdest, hfirst⟩ := hroot
  obtain ⟨hrow, hall, hlive, hname⟩ := mem_announcements.mp hmem
  refine ⟨first, mem_announcements.mpr ⟨h.keep first hrow hlive, hall, hlive, hname⟩, hdest, ?_⟩
  intro x hx
  obtain ⟨hxrow, hxall, hxlive, hxname⟩ := mem_announcements.mp hx
  rcases h.source x hxrow with hx | ⟨r, -, t, hle, -, -, rfl⟩
  · exact hfirst x (mem_announcements.mpr ⟨hx, hxall, hxlive, hxname⟩)
  · obtain ⟨t', ht', heq⟩ := hs first hrow
    refine .inr ?_
    rw [heq]
    exact hclock (ht'.trans_le hle)

theorem Adds.leads_first {names : RouteName → Prop} (hnames : Distinguished names) {nodeId : String}
    (h : Adds E (announcementRoute s.db nodeId name :: routes) s s') (hs : RowsOk names s.db)
    (hname : names name) (hroutes : ∀ r ∈ routes, WellNamed names r ∧ r.sourceNodeId ≠ ALL_NODES_ID)
    (hnone : s.db.announcements name = []) : Leads s'.db name nodeId := by
  have hnamed : WellNamed names (announcementRoute s.db nodeId name) :=
    ⟨hname, iff_of_true rfl rfl⟩
  have hs' : RowsOk names s'.db := h.rowsOk hs fun r hr => by
    rcases List.mem_cons.mp hr with rfl | hr
    · exact hnamed
    · exact (hroutes r hr).1
  obtain ⟨first, hrow, hlive, hall, hdest, hfname, -⟩ :=
    hs'.exists_row hnames hnamed (h.added _ List.mem_cons_self)
  refine ⟨first, mem_announcements.mpr ⟨hrow, hall, hlive, hfname⟩, hdest, fun x hx => .inl ?_⟩
  -- another one is new too, and has the same id
  obtain ⟨hxrow, hxall, hxlive, hxname⟩ := mem_announcements.mp hx
  rcases h.source x hxrow with hx | ⟨r, hr, t, -, -, -, rfl⟩
  · have hmem := mem_announcements.mpr ⟨hx, hxall, hxlive, hxname⟩
    rw [hnone] at hmem
    simp at hmem
  · rcases List.mem_cons.mp hr with rfl | hr
    · refine s'.db.routes.eq_of_mem hxrow hrow ?_
      obtain ⟨hid, -⟩ := hs' first hrow
      obtain ⟨hxid, hxnamed⟩ := hs' _ hxrow
      rw [hid, hxid, Route.computeId, Route.computeId, hall, hdest, hfname,
        (hs' first hrow).2.2.mp hall]
      rfl
    · exact absurd hxall (hroutes r hr).2

end Slim.RouteService
