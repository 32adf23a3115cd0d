import Slim.Lib.Reorder
import Slim.Session.Proof.GroupChange
import Slim.Session.Proof.Loop
import Slim.Session.Proof.MlsState

/-!
# The rosters of a moderator and a participant

A participant starts with the roster of its welcome (`Follows.of_welcome`). It processes the commits
of its moderator in their order, whatever the order of arrival, but changes its roster when a
message arrives. So its roster is that of the moderator when only changes of different members
change places on the way, and not otherwise.
-/

namespace Slim

open ControllerSender Function GroupChange Prog Roster SessionControllerCommon

theorem GroupChange.commit (c : GroupChange) : c.msg.commit = some c.mls := by
  simp [Publish.commit, c.isUpdate, Publish.extract, Publish.extractCommandPayload, c.carried]
  rfl

/-! ## The participant's roster -/

namespace SessionParticipant

variable {G : Type}

/-- What a group update does not change, besides the MLS state. -/
def standing (s : SessionParticipant G) : Bool × Option ProtoName × SessionSettings :=
  (s.common.online, s.moderatorName, s.common.settings)

/-- The same, with the MLS state. -/
def beside (s : SessionParticipant G) :
    (Bool × Option ProtoName × SessionSettings) × Option (MlsState G) := (s.standing, s.mlsState)

/-- And with the roster. -/
def kept (s : SessionParticipant G) := (s.beside, s.groupList)

section frames
variable (msg : Publish) (p : Participant) (name : ProtoName) (conn : ConnId)

theorem onCommon_kept {α : Type} {x : SessionControllerCommon.M α}
    (hx : Frame (fun c => (c.online, c.settings)) x) : Frame kept (onCommon x : M G α) := fun s =>
  congrArg (fun c => (((c.1, s.moderatorName, c.2), s.mlsState), s.groupList)) (hx s.common)

theorem addRoute_kept : Frame kept (onCommon (addRoute name conn) : M G Unit) :=
  onCommon_kept (addRoute_frame (fun _ _ _ => rfl) name conn)

theorem addEndpoint_kept : Frame kept (addEndpoint p : M G SessionOutput) :=
  .bind (.expect _ _) fun _ => .bind (fun _ => rfl) fun _ => .bind (fun _ => rfl) fun _ =>
    .bind (.modify fun _ => rfl) fun _ => .pure _

theorem join_kept : Frame kept (join msg : M G Unit) :=
  have entry (name : ProtoName) (conn : ConnId) :
      Frame kept (onCommon (addSubscription name conn) : M G Unit) :=
    onCommon_kept (addEntry_frame (fun _ _ _ => rfl) _ name conn)
  .bind (.read _) fun _ => .ite (.pure _) (.bind (.modify fun _ => rfl) fun _ =>
    .bind (.expect _ _) fun _ => .bind (.modify fun _ => rfl) fun _ => .ite (.pure _)
      (.bind (addRoute_kept _ _) fun _ => .bind (entry _ _) fun _ =>
        .bind (addRoute_kept _ _) fun _ => entry _ _))

@[grind ←] theorem addRoute_beside : Frame beside (onCommon (addRoute name conn) : M G Unit) :=
  (addRoute_kept name conn).comp Prod.fst

@[grind ←] theorem deleteRoute_beside :
    Frame beside (onCommon (deleteRoute name conn) : M G Unit) :=
  (onCommon_kept (deleteRoute_frame (fun _ _ _ => rfl) name conn)).comp Prod.fst

@[grind ←] theorem onInner_beside {α : Type} (x : Session.M α) :
    Frame beside (onInner x : M G α) := fun _ => rfl

@[grind ←] theorem modifyRoster_beside (f : Roster → Roster) :
    Frame beside (modifyRoster f : M G Unit) := fun _ => rfl

@[grind ←] theorem addEndpoint_beside : Frame beside (addEndpoint p : M G SessionOutput) :=
  (addEndpoint_kept p).comp Prod.fst

theorem onAdded_beside : Frame beside (onAdded msg p : M G Unit) := by
  unfold onAdded incomingConn
  grind

theorem onRemoved_beside : Frame beside (onRemoved msg p : M G Unit) := by
  unfold onRemoved incomingConn settings
  grind

theorem onRejoined_beside : Frame beside (onRejoined msg p name : M G Unit) := by
  unfold onRejoined incomingConn
  grind

end frames

section roster
variable (msg : Publish) (p : Participant) {name : ProtoName} (c : GroupChange) (g : Roster)

theorem connect_roster (name : ProtoName) :
    Frame groupList (do
      let conn ← incomingConn msg
      onCommon (addRoute name conn)
      let _ ← addEndpoint p
      pure () : M G Unit) :=
  .bind (.expect _ _) fun _ => .bind (fun _ => rfl) fun _ =>
    .bind ((addEndpoint_kept p).comp Prod.snd) fun _ => .pure _

variable {p}

theorem ofMessage_getName (hp : p.name = some name) :
    SessionError.ofMessage p.getName = .ok name := by
  rw [Participant.getName, hp]
  rfl

theorem onAdded_roster (hp : p.name = some name) (s : SessionParticipant G) :
    (onAdded msg p s).2.groupList = s.groupList.insert name p := by
  rw [onAdded, ofMessage_getName hp]
  exact connect_roster msg p name _

theorem onRemoved_roster (hp : p.name = some name) (s : SessionParticipant G) :
    (onRemoved msg p s).2.groupList = s.groupList.erase name := by
  rw [onRemoved, ofMessage_getName hp, ofExcept_ok_bind_run, modifyRoster, modify_bind_run]
  refine Prog.Frame.bind (.read _) (fun st => ?_) _
  split
  · exact .bind (.expect _ _) fun _ => .bind (fun _ => rfl) fun _ => fun _ => rfl
  · exact fun _ => rfl

theorem byName_insert (name : ProtoName) (p : Participant) :
    byName (g.insert name p) = update g.byName name (some p) := by
  funext n
  by_cases hn : n = name
  · subst hn
    rw [byName, AList.lookup_insert, update_self]
  · rw [byName, AList.lookup_insert_ne hn, update_of_ne hn, byName]

theorem byName_erase (name : ProtoName) :
    byName (g.erase name) = update g.byName name none := by
  funext n
  by_cases hn : n = name
  · subst hn
    rw [byName, AList.lookup_erase, update_self]
  · rw [byName, AList.lookup_erase_ne hn, update_of_ne hn, byName]

theorem onRejoined_roster (name : ProtoName) (s : SessionParticipant G) :
    (onRejoined msg p name s).2.groupList.byName = update s.groupList.byName name
      (some (((s.groupList.byName name).getD p).setStatus .Online)) := by
  rw [onRejoined, read_bind_run, byName]
  cases hl : s.groupList.lookup name with
  | some entry =>
    have hset : setStatus name .Online s.groupList =
        s.groupList.insert name (entry.setStatus .Online) := by rw [setStatus, hl]
    exact (congrArg byName hset).trans (byName_insert _ _ _)
  | none =>
    exact (congrArg byName (connect_roster msg p name _)).trans (byName_insert _ _ _)

/-- What a change does to the roster of a participant, whatever becomes of its routes. -/
theorem applyUpdate_roster (s : SessionParticipant G) :
    (applyUpdate c.msg c.op ⟨c.op.toInt, some c.participant, c.participants, some c.mls⟩ false
      s).2.groupList.byName = c.onMembers s.groupList.byName := by
  unfold applyUpdate onMembers
  cases c.op with
  | Add => exact (congrArg _ (onAdded_roster c.msg c.named s)).trans (byName_insert _ _ _)
  | Remove => exact (congrArg _ (onRemoved_roster c.msg c.named s)).trans (byName_erase _ _)
  | Rejoin =>
    dsimp only
    rw [ofMessage_getName c.named]
    exact onRejoined_roster c.msg c.name s

theorem applyUpdate_beside :
    Frame beside (applyUpdate c.msg c.op
      ⟨c.op.toInt, some c.participant, c.participants, some c.mls⟩ false : M G Unit) := by
  cases c.op with
  | Add => exact onAdded_beside _ _
  | Remove => exact onRemoved_beside _ _
  | Rejoin => exact .bind (.ofExcept _) fun name => onRejoined_beside _ _ name

end roster

/-! ## Updates that arrive -/

open MlsState (Delivered Updates)

variable (X : MlsLib G)

/-- A participant that was welcomed with commit `w` and has had the group updates `D`. -/
structure Follows (w : UInt32) (g₀ : G) (moderator localName : ProtoName) (D : List Publish)
    (s : SessionParticipant G) : Prop where
  online : s.common.online = true
  moderatorName : s.moderatorName = some moderator
  source : s.common.settings.source = localName
  mls : ∃ st, s.mlsState = some st ∧ Delivered X w g₀ D st

/-! ## The welcome -/

section welcome
variable {X} {msg : Publish} {s s' : SessionParticipant G}

theorem welcomeMember_kept {p : Participant} (h : welcomeMember msg p s = (.ok (), s')) :
    ∃ name, p.name = some name ∧ s'.kept = (s.beside, s.groupList.insert name p) := by
  obtain ⟨name, hname, h⟩ := ofExcept_bind_eq_ok.mp h
  have hp : p.name = some name := by
    cases hp : p.name <;> simp_all [Participant.getName, SessionError.ofMessage]
  rw [modifyRoster, modify_bind_run, read_bind_run] at h
  refine ⟨name, hp, (congrArg (fun r => r.2.kept) h).symm.trans (Prog.Frame.ite (.pure _) ?_ _)⟩
  dsimp only
  split
  case' isTrue => refine .bind (.expect _ _) fun conn => .bind (addRoute_kept name conn) fun _ => ?_
  all_goals exact .ite (.bind (addEndpoint_kept p) fun _ => .pure _) (.pure _)

/-- The last entry of the list under a name is the one that stays. -/
theorem welcomed_kept {ps : List Participant} (h : each (welcomeMember msg) ps s = (.ok (), s')) :
    s'.beside = s.beside ∧ ∀ name, s'.groupList.byName name =
      (ps.reverse.find? fun p => p.name = some name).or (s.groupList.byName name) := by
  induction ps generalizing s with
  | nil =>
    cases h
    simp
  | cons p ps ih =>
    obtain ⟨_, s₁, hp, h⟩ := bind_eq_ok.mp h
    obtain ⟨name, hname, hkept⟩ := welcomeMember_kept hp
    obtain ⟨hbeside, hroster⟩ := ih h
    refine ⟨hbeside.trans (congrArg Prod.fst hkept), fun name' => ?_⟩
    rw [hroster, show s₁.groupList = _ from congrArg Prod.snd hkept, byName_insert]
    by_cases hn : name' = name
    · subst hn
      simp [hname]
    · simp [hname, update_of_ne hn, Ne.symm hn]

/-- A participant that has processed its welcome follows the moderator, and has its roster. -/
theorem Follows.of_welcome {out : SessionOutput} {payload : GroupWelcomePayload} {mls : MlsPayload}
    {g₀ : G} {percent : Nat} {binding : IdentityBinding} {g : Roster} {moderator : ProtoName}
    (h : onWelcome X msg s = (.ok out, s'))
    (hp : msg.extract CommandPayload.asGroupWelcome = .ok payload) (hmls : payload.mls = some mls)
    (hvalues : payload.participants = g.values) (hg : g.Sound) (honline : s.common.online = true)
    (hmoderator : s.moderatorName = some moderator) (hempty : s.groupList = ∅)
    (hst : s.mlsState = some
      { mls := g₀, headerIntegrityValidationPercent := percent, identityBinding := binding }) :
    ∃ st, s'.mlsState = some st ∧
      Follows X mls.commitId st.mls moderator s.common.settings.source [] s' ∧
      s'.groupList.byName = g.members := by
  obtain ⟨_, s₁, hfirst, h⟩ := bind_eq_ok.mp h
  obtain ⟨_, s₂, hjoin, h⟩ := bind_eq_ok.mp h
  obtain ⟨_, -, h⟩ := expect_bind_eq_ok.mp h
  obtain ⟨_, hp', h⟩ := ofExcept_bind_eq_ok.mp h
  rw [hp] at hp'
  cases hp'
  obtain ⟨_, _, heach, h⟩ := bind_eq_ok.mp h
  cases h
  simp only [onMls, hst] at hfirst
  rcases hr : MlsState.processWelcomeMessage X msg _ with ⟨_ | _ | _, st⟩ <;>
    rw [hr] at hfirst <;> cases hfirst
  have hkept := (congrArg (fun r => r.2.kept) hjoin).symm.trans (join_kept msg _)
  obtain ⟨hbeside, hroster⟩ := welcomed_kept heach
  have hside : s'.beside = (s.standing, some st) := hbeside.trans (congrArg Prod.fst hkept)
  have hs₂ : s₂.groupList = ∅ := (congrArg Prod.snd hkept).trans hempty
  refine ⟨st, congrArg Prod.snd hside, ⟨?_, ?_, ?_, st, congrArg Prod.snd hside,
    .of_welcomed ⟨_, msg, payload, mls, rfl, rfl, rfl, hp, hmls, rfl, hr⟩⟩, ?_⟩
  · exact (congrArg (fun b => b.1.1) hside).trans honline
  · exact (congrArg (fun b => b.1.2.1) hside).trans hmoderator
  · exact congrArg (fun b => b.1.2.2.source) hside
  · refine funext fun name => (hroster name).trans ?_
    rw [hs₂, hvalues, byName, AList.lookup_empty, Option.or_none]
    cases hfind : g.values.reverse.find? fun p => p.name = some name with
    | some p =>
      exact (hg.members_eq_some.mpr ⟨by simpa using List.mem_of_find?_eq_some hfind,
        by simpa using List.find?_some hfind⟩).symm
    | none =>
      refine (Option.eq_none_iff_forall_ne_some.mpr fun p hmem => ?_).symm
      obtain ⟨hp, hname⟩ := hg.members_eq_some.mp hmem
      simpa [hname] using List.find?_eq_none.mp hfind p (List.mem_reverse.mpr hp)

end welcome

def receive (s : SessionParticipant G) (e : Env × GroupChange) : SessionParticipant G :=
  (handle X (.onMessage e.2.msg .North none) { s with common := s.common.withEnv e.1 }).2

section step
variable {X} {w : UInt32} {g₀ : G} {moderator localName : ProtoName} {D U : List Publish}
  {s : SessionParticipant G} {c : GroupChange}

theorem rejectsNonModerator_moderator {msg : Publish} (hm : s.moderatorName = some msg.source)
    (henc : msg.source.name.isSome) (htype : msg.type = .GroupUpdate) :
    (rejectsNonModerator msg : M G Bool) s = (.ok false, s) := by
  obtain ⟨e, he⟩ := Option.isSome_iff_exists.mp henc
  have hsame : msg.source.sameName msg.source = some true := by
    simp [ProtoName.sameName, ProtoName.matchPrefix, ProtoName.id, he]
  rw [rejectsNonModerator, read_bind_run, id, hm]
  dsimp only
  split
  · rfl
  · rw [sameName, hsame, expect_some_bind_run, if_pos (by simp [htype, moderatorOnly])]
    rfl

theorem handle_update (honline : s.common.online = true)
    (hm : s.moderatorName = some c.msg.source) (henc : c.msg.source.name.isSome) :
    handle X (.onMessage c.msg .North none) s =
      onGroupUpdateMessage X c.msg
        ((modifySender (notifyReceivedActivity c.msg) : M G Unit) s).2 := by
  have hreject := rejectsNonModerator_moderator
    (s := ((modifySender (notifyReceivedActivity c.msg) : M G Unit) s).2)
    hm henc c.isUpdate
  have hprocess : processControlMessage X .North c.msg none
      ((modifySender (notifyReceivedActivity c.msg) : M G Unit) s).2 =
      onGroupUpdateMessage X c.msg
        ((modifySender (notifyReceivedActivity c.msg) : M G Unit) s).2 := by
    rw [processControlMessage]
    dsimp only
    rw [if_pos rfl, bind_ok hreject]
    simp [c.isUpdate]
  rw [← hprocess, handle, read_bind_run, if_neg (by simp [honline])]
  simp only [c.isUpdate]
  rfl

/-- A new commit is accepted, and the roster changes at once. -/
theorem onGroupUpdateMessage_eq {st st' : MlsState G} (hst : s.mlsState = some st)
    (hp : MlsState.processControlMessage X c.msg s.common.settings.source st = (.ok true, st'))
    (hself : ¬ (c.op = .Rejoin ∧ c.name = s.common.settings.source)) :
    (onGroupUpdateMessage X c.msg s).2 = (applyUpdate c.msg c.op
      ⟨c.op.toInt, some c.participant, c.participants, some c.mls⟩ false
      { s with mlsState := some st' }).2 := by
  have hmls : onMls (MlsState.processControlMessage X c.msg s.common.settings.source) s =
      (.ok (some true), { s with mlsState := some st' }) := by
    simp [onMls, hst, hp]
  have hread : (c.msg.read CommandPayload.asGroupUpdate : M G _) s =
      (.ok ⟨c.op.toInt, some c.participant, c.participants, some c.mls⟩, s) := by
    simp [Publish.read, Publish.extract, Publish.extractCommandPayload, c.carried]
    rfl
  have hno : decide (c.op = .Rejoin ∧ c.participant.name = some s.common.settings.source) =
      false := by
    rw [c.named]
    simpa using hself
  rw [onGroupUpdateMessage, c.carried, expect_some_bind_run, bind_ok hread,
    GroupUpdateOp.ofInt_toInt, okOr_some_bind_run, settings, read_bind_run]
  dsimp only [Option.bind_some]
  rw [if_neg (by rw [hno]; simp), bind_ok hmls, if_neg (by simp), hno, bind_run]
  rcases applyUpdate c.msg c.op _ false _ with ⟨_ | _ | _, s'⟩ <;> rfl

theorem Follows.receive (hw : w ≠ 0) (hU : Updates X w g₀ U) (hD : D ++ [c.msg] ⊆ U)
    (hnew : c.msg ∉ D) (henc : moderator.name.isSome) (hsource : c.msg.source = moderator)
    (hself : ¬ (c.op = .Rejoin ∧ c.name = localName)) (env : Env)
    (h : Follows X w g₀ moderator localName D s) :
    Follows X w g₀ moderator localName (D ++ [c.msg]) (receive X s (env, c)) ∧
      (receive X s (env, c)).groupList.byName = c.onMembers s.groupList.byName := by
  obtain ⟨honline, hmod, hsrc, st, hst, hdel⟩ := h
  obtain ⟨st', hp, hdel', -⟩ := hdel.accepts hw hU hD hnew localName
  subst hsource hsrc
  have heq : receive X s (env, c) = (applyUpdate c.msg c.op
      ⟨c.op.toInt, some c.participant, c.participants, some c.mls⟩ false _).2 :=
    (congrArg Prod.snd (handle_update (s := { s with common := s.common.withEnv env }) honline hmod
      henc)).trans (onGroupUpdateMessage_eq hst hp hself)
  have hbeside := applyUpdate_beside c
    { ((modifySender (notifyReceivedActivity c.msg) : M G Unit)
        { s with common := s.common.withEnv env }).2 with mlsState := some st' }
  rw [heq]
  refine ⟨⟨?_, ?_, ?_, st', ?_, hdel'⟩, applyUpdate_roster c _⟩
  · exact (congrArg (fun b => b.1.1) hbeside).trans honline
  · exact (congrArg (fun b => b.1.2.1) hbeside).trans hmod
  · exact congrArg (fun b => b.1.2.2.source) hbeside
  · exact congrArg Prod.snd hbeside

theorem Follows.foldl (hw : w ≠ 0) (hU : Updates X w g₀ U) (henc : moderator.name.isSome)
    {es : List (Env × GroupChange)} (hD : D ++ es.map (fun e => e.2.msg) ⊆ U)
    (hnew : (D ++ es.map (fun e => e.2.msg)).Nodup) (hsource : ∀ e ∈ es, e.2.msg.source = moderator)
    (hself : ∀ e ∈ es, ¬ (e.2.op = .Rejoin ∧ e.2.name = localName))
    (h : Follows X w g₀ moderator localName D s) :
    (es.foldl (SessionParticipant.receive X) s).groupList.byName =
      (es.map Prod.snd).foldl (fun m c => c.onMembers m) s.groupList.byName := by
  induction es generalizing D s with
  | nil => rfl
  | cons e es ih =>
    rw [List.map_cons, List.append_cons] at hD hnew
    have hfresh : e.2.msg ∉ D := by
      have := (List.nodup_append.mp hnew).1
      rw [List.nodup_append] at this
      exact fun hm => this.2.2 _ hm _ (List.mem_singleton_self _) rfl
    obtain ⟨h', hroster⟩ := h.receive hw hU (fun _ hm => hD (List.mem_append_left _ hm)) hfresh henc
      (hsource e List.mem_cons_self) (hself e List.mem_cons_self) e.1
    rw [List.foldl_cons, ih hD hnew (fun e he => hsource e (List.mem_cons_of_mem _ he))
      (fun e he => hself e (List.mem_cons_of_mem _ he)) h', hroster]
    rfl

end step

/-- Whatever the order of arrival, when only changes of different members change places on the way,
the participant ends with the roster of the moderator. -/
theorem rosters_converge {w : UInt32} {g₀ : G} {moderator localName : ProtoName}
    {m m' : SessionModerator G} {s : SessionParticipant G} {changes : List GroupChange}
    {arrivals : List (Env × GroupChange)}
    -- the moderator commits the changes, with consecutive ids after the one of the welcome
    (hm : m.groupList.Sound) (hcommits : SessionModerator.CommitsAll X m changes m')
    (hids : changes.map (·.mls.commitId.toNat) = List.range' (w.toNat + 1) changes.length)
    -- the participant has processed its welcome, and has the moderator's roster
    (hw : w ≠ 0) (hs : Follows X w g₀ moderator localName [] s)
    (hroster : s.groupList.byName = m.groupList.members)
    -- the updates come from the moderator, and the library accepts its commits in their order
    (henc : moderator.name.isSome) (hsource : ∀ c ∈ changes, c.msg.source = moderator)
    (haccept : (X.applyCommits (changes.map (·.mls)) g₀).isSome)
    -- each arrives once
    (harrive : (arrivals.map Prod.snd).Perm changes)
    -- the condition
    (hapart : AllApart changes m.groupList)
    (hself : ∀ c ∈ changes, ¬ (c.op = .Rejoin ∧ c.name = localName))
    (horder : ∀ a b, [a, b].Sublist changes → [b, a].Sublist (arrivals.map Prod.snd) →
      a.name ≠ b.name) :
    (arrivals.foldl (receive X) s).groupList.byName = m'.groupList.members := by
  obtain ⟨hfit, hm'⟩ := hcommits.roster hm hapart
  have hU : Updates X w g₀ (changes.map (·.msg)) := by
    refine .of_commits (changes.map (·.mls)) ?_ ?_ haccept
    · simp [commit]
    · simpa [comp_def] using hids
  have hperm : (arrivals.map fun e => e.2.msg).Perm (changes.map (·.msg)) := by
    simpa [comp_def] using harrive.map (·.msg)
  have hnodup : (changes.map (·.msg)).Nodup := by
    refine List.Nodup.of_map (fun m => m.commit.map (·.commitId.toNat)) ?_
    have hid : (changes.map (·.msg)).map (fun m => m.commit.map (·.commitId.toNat)) =
        (changes.map (·.mls.commitId.toNat)).map some := by simp [commit]
    rw [hid, hids]
    exact (List.nodup_range' ..).map (Option.some_injective _)
  have hmem {e : Env × GroupChange} (he : e ∈ arrivals) : e.2 ∈ changes :=
    harrive.mem_iff.mp (List.mem_map_of_mem he)
  calc (arrivals.foldl (receive X) s).groupList.byName
      = (arrivals.map Prod.snd).foldl (fun g c => c.onMembers g) s.groupList.byName :=
        hs.foldl hw hU henc (fun _ h => hperm.mem_iff.mp h) (hperm.nodup_iff.mpr hnodup)
          (fun e he => hsource e.2 (hmem he)) (fun e he => hself e.2 (hmem he))
    _ = changes.foldl (fun g c => c.onMembers g) m.groupList.members := by
        rw [hroster]
        exact List.foldl_reorder (fun g a b hab => onMembers_comm hab g) harrive horder _
    _ = m'.groupList.members := by rw [hm', hfit.members]

end SessionParticipant

namespace SessionModerator

open SessionLoop
open MlsState (epochLib)

/-- The draws of an event count up from `n`. -/
def sampleDraws (n : Nat) : Env := { sampleEnv n with rand := fun k => n + k }

def sampleArrive (s : SessionModerator UInt64) (e : Nat × MessageDirection × Publish) :
    SessionModerator UInt64 :=
  (handle epochLib (.onMessage e.2.2 e.2.1 none)
    { s with common := s.common.withEnv (sampleDraws e.1) }).2

def sampleMessage (t : SessionMessageType) (app : UInt64) (id : Nat) (command : CommandPayload) :
    MessageDirection × Publish :=
  (.North, sampleControl t (sampleApp app 7) sampleLocal id command)

def sampleParticipant (app : UInt64) : Participant := .new (sampleApp app 7) ⟨true, true⟩

/-- Application `app` is invited, and answers. -/
def sampleInvited (app : UInt64) (n : Nat) : List (Nat × MessageDirection × Publish) :=
  [(n, .South, sampleControl .DiscoveryRequest sampleLocal (sampleApp app NameId.NULL_COMPONENT) 0
     .discoveryRequest), (n + 1, sampleMessage .DiscoveryReply app n .discoveryReply)]

def sampleJoinReply (app : UInt64) (n : Nat) : MessageDirection × Publish :=
  sampleMessage .JoinReply app (n + 1) (.joinReply ⟨none, some (sampleParticipant app)⟩)

def sampleGroup : SessionModerator UInt64 :=
  (sampleInvited 3 10 ++ [(12, sampleJoinReply 3 10),
    (13, sampleMessage .GroupAck 3 12 .groupAck)]).foldl sampleArrive (.new { sampleSettings with
      config := { sampleSettings.config with mlsSettings := some 100 } } (sampleEnv 1) 7)

/-- The moderator when the join reply of application `app` arrives. -/
def sampleAddition (app : UInt64) (n : Nat) (s : SessionModerator UInt64) :
    SessionModerator UInt64 :=
  let s := (sampleInvited app n).foldl sampleArrive s
  { s with common := s.common.withEnv (sampleDraws (n + 2)) }

def sampleAdded : SessionModerator UInt64 :=
  (onJoinReplyInner epochLib (sampleJoinReply 5 20).2 (sampleAddition 5 20 sampleGroup)).2

def sampleAcked : SessionModerator UInt64 :=
  [(24, sampleMessage .GroupAck 3 22 .groupAck), (25, sampleMessage .GroupAck 5 23 .groupAck)].foldl
    sampleArrive sampleAdded

def sampleLeave : Publish :=
  sampleControl .LeaveRequest sampleLocal (sampleApp 5 NameId.NULL_COMPONENT) 0 .leaveRequest

def sampleRemoved : SessionModerator UInt64 :=
  (onLeaveRequest epochLib sampleLeave none sampleAcked).2

def sampleAddedToo : SessionModerator UInt64 :=
  (onJoinReplyInner epochLib (sampleJoinReply 6 30).2 (sampleAddition 6 30 sampleAcked)).2

/-- What application 3 receives of a change. -/
def sampleChange (op : GroupUpdateOp) (app : UInt64) (participants : List Participant)
    (commitId : UInt32) : GroupChange where
  op
  participant := sampleParticipant app
  name := sampleApp app 7
  participants
  mls := ⟨commitId, []⟩
  msg := sampleControl .GroupUpdate sampleLocal (sampleApp 3 7) commitId.toNat
    (.groupUpdate ⟨op.toInt, some (sampleParticipant app), participants, some ⟨commitId, []⟩⟩)
  named := rfl
  carried := rfl
  isUpdate := rfl

def sampleAdd : GroupChange := sampleChange .Add 5 sampleAdded.groupList.values 2

def sampleRemove : GroupChange := sampleChange .Remove 5 sampleAcked.groupList.values 3

def sampleAddToo : GroupChange := sampleChange .Add 6 sampleAddedToo.groupList.values 3

theorem sampleGroup_sound : sampleGroup.groupList.Sound := .of_entries (by decide +kernel)

theorem sampleAdd_commits (c : GroupChange) (s : SessionModerator UInt64)
    (h : CommitsAll epochLib sampleAdded [c] s) :
    CommitsAll epochLib sampleGroup [sampleAdd, c] s :=
  .cons (AList.ext (by decide +kernel)) (.of_joinReply (by decide) (by decide +kernel)) h

end SessionModerator

namespace SessionParticipant

open SessionLoop SessionModerator
open MlsState (epochLib)

def sampleWelcome : Publish :=
  sampleControl .GroupWelcome sampleLocal (sampleApp 3 7) 12
    (.groupWelcome ⟨sampleGroup.groupList.values, some ⟨1, []⟩⟩)

def sampleJoining : SessionParticipant UInt64 :=
  (handle epochLib (.onMessage (sampleControl .JoinRequest sampleLocal (sampleApp 3 7) 11
      (.joinRequest none none none (some 100))) .North none)
    (.new { sampleSettings with
        source := sampleApp 3 7
        config := { sampleSettings.config with mlsSettings := some 100, initiator := false } }
      (sampleEnv 2) 7)).2

def sampleMember : SessionParticipant UInt64 := (onWelcome epochLib sampleWelcome sampleJoining).2

theorem sampleMember_welcomed :
    Follows epochLib 1 7 sampleLocal (sampleApp 3 7) [] sampleMember ∧
      sampleMember.groupList.byName = sampleGroup.groupList.members := by
  obtain ⟨out, hok⟩ : ∃ out, onWelcome epochLib sampleWelcome sampleJoining =
      (.ok out, sampleMember) := ⟨_, rfl⟩
  obtain ⟨st, hst, h⟩ := Follows.of_welcome hok rfl rfl rfl sampleGroup_sound rfl rfl rfl rfl
  cases (show sampleMember.mlsState = some _ from rfl).symm.trans hst
  exact h

/-- Two members are added, and the updates arrive in the other order. -/
theorem rosters_converge_additions :
    ([(sampleEnv 4, sampleAddToo), (sampleEnv 5, sampleAdd)].foldl (receive epochLib)
      sampleMember).groupList.byName = sampleAddedToo.groupList.members := by
  have hcommits : CommitsAll epochLib sampleGroup [sampleAdd, sampleAddToo] sampleAddedToo :=
    sampleAdd_commits _ _ (.cons (AList.ext (by decide +kernel))
      (.of_joinReply (by decide) (by decide +kernel)) (.nil rfl))
  refine rosters_converge epochLib sampleGroup_sound hcommits (by decide +kernel) (by decide)
    sampleMember_welcomed.1 sampleMember_welcomed.2 (by decide) (by decide +kernel)
    (by decide +kernel) (.swap _ _ _) (by decide +kernel) (by decide +kernel) fun a b hab _ => ?_
  cases hab.eq_of_length rfl
  decide

/-- A member is added and removed. The updates arrive in the other order, and the member stays in
the participant's roster. -/
theorem removed_member_stays :
    let changes := [sampleAdd, sampleRemove]
    let arrivals := [(sampleEnv 4, sampleRemove), (sampleEnv 5, sampleAdd)]
    CommitsAll epochLib sampleGroup changes sampleRemoved ∧
      changes.map (·.mls.commitId.toNat) = List.range' 2 changes.length ∧
      Follows epochLib 1 7 sampleLocal (sampleApp 3 7) [] sampleMember ∧
      sampleMember.groupList.byName = sampleGroup.groupList.members ∧
      (epochLib.applyCommits (changes.map (·.mls)) 7).isSome ∧
      (arrivals.map Prod.snd).Perm changes ∧
      (arrivals.foldl (receive epochLib) sampleMember).groupList.byName ≠
        sampleRemoved.groupList.members := by
  refine ⟨sampleAdd_commits _ _ (.cons (AList.ext (by decide +kernel))
      (.of_leaveRequest (by decide) (by decide +kernel)) (.nil rfl)), by decide +kernel,
    sampleMember_welcomed.1, sampleMember_welcomed.2, by decide +kernel, .swap _ _ _, fun heq => ?_⟩
  exact absurd (congrFun heq (sampleApp 5 7)) (by decide +kernel)

end SessionParticipant

end Slim
