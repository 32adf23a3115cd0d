import Mathlib.Logic.Function.Basic
import Slim.Lib.Lookup
import Slim.Session.Proof.Moderator

/-!
# The membership changes of a moderator

A moderator commits membership changes one after the other and tells each in a `GroupUpdate`
(`GroupChange`). `Commits` is one such step of the moderator, by the handler that takes it, and
`CommitsAll` a sequence of them; what they do to the roster is `onModerator`.

The rosters of a moderator and of a participant are compared as functions from full names
(`Members`). The moderator's is by names without an id: `Fits` is what its handlers have checked
when they commit a change, and that there is one instance of a name in the group.
-/

namespace Slim

open Function GroupUpdateOp Prog SessionControllerCommon

theorem GroupUpdateOp.ofInt_toInt (op : GroupUpdateOp) : ofInt op.toInt = some op := by
  cases op <;> rfl

abbrev Members := ProtoName → Option Participant

/-- The group in a moderator's roster. -/
def Roster.members (g : Roster) : Members := fun name =>
  (name.resetId.bind g.lookup).filter fun p => p.name = some name

/-- The group in a participant's roster. -/
def Roster.byName (g : Roster) : Members := fun name => g.lookup name

/-- The entries of a moderator's roster are under their names, and their status is known. -/
def Roster.Sound (g : Roster) : Prop :=
  ∀ key p, g.lookup key = some p →
    (∃ name, p.name = some name ∧ name.resetId = some key) ∧ (p.isOnline ∨ p.isOffline)

namespace Roster

theorem Sound.of_entries {g : Roster}
    (h : ∀ e ∈ g.entries, e.2.name.bind ProtoName.resetId = some e.1 ∧
      (e.2.isOnline ∨ e.2.isOffline)) : g.Sound := by
  intro key p hl
  obtain ⟨hname, hstatus⟩ := h ⟨key, p⟩ (AList.mem_lookup_iff.mp hl)
  obtain ⟨name, hn, hkey⟩ := Option.bind_eq_some_iff.mp hname
  exact ⟨⟨name, hn, hkey⟩, hstatus⟩

theorem Sound.members_eq_some {g : Roster} (hg : g.Sound) {name : ProtoName} {p : Participant} :
    g.members name = some p ↔ p ∈ g.values ∧ p.name = some name := by
  simp only [members, Option.filter_eq_some_iff, Option.bind_eq_some_iff, decide_eq_true_eq]
  refine and_congr_left fun hname => ⟨?_, fun hp => ?_⟩
  · rintro ⟨key, -, hkey⟩
    exact List.mem_map.mpr ⟨⟨key, p⟩, AList.mem_lookup_iff.mp hkey, rfl⟩
  · obtain ⟨⟨key, p⟩, he, rfl⟩ := List.mem_map.mp hp
    have hkey := AList.mem_lookup_iff.mpr he
    obtain ⟨name', hname', hreset⟩ := (hg key p hkey).1
    cases hname.symm.trans hname'
    exact ⟨key, hreset, hkey⟩

end Roster

/-- A membership change with the group update that tells of it. -/
structure GroupChange where
  op : GroupUpdateOp
  participant : Participant
  name : ProtoName
  participants : List Participant
  mls : MlsPayload
  msg : Publish
  named : participant.name = some name
  carried : msg.payload = some (.commandPayload (some
    (.groupUpdate ⟨op.toInt, some participant, participants, some mls⟩)))
  isUpdate : msg.type = .GroupUpdate

namespace GroupChange

/-- What a change does to the group. -/
def onMembers (c : GroupChange) (m : Members) : Members :=
  update m c.name
    (match c.op with
      | .Add => some c.participant
      | .Remove => none
      | .Rejoin => some (((m c.name).getD c.participant).setStatus .Online))

/-- What the moderator does to its roster when it commits the change. -/
def onModerator (c : GroupChange) (g : Roster) : Roster :=
  match c.name.resetId with
  | none => g
  | some key =>
    match c.op with
    | .Add => g.insert key c.participant
    | .Remove => g.erase key
    | .Rejoin =>
      if c.participant.isOffline then g.insert key (c.participant.setStatus .Online) else g

/-- The change fits the moderator's roster: a member is added under a name of which there is no
other instance, and removed or brought back when it is there. -/
def Fits (c : GroupChange) (g : Roster) : Prop :=
  ∃ key, c.name.resetId = some key ∧
    match c.op with
    | .Add => ∀ p ∈ g.lookup key, p.name = some c.name
    | .Remove => g.lookup key = some c.participant
    | .Rejoin => g.lookup key = some c.participant ∧
        (c.participant.isOnline ∨ c.participant.isOffline)

/-- The changes fit, each the roster that those before it leave. -/
def AllFit : List GroupChange → Roster → Prop
  | [], _ => True
  | c :: cs, g => c.Fits g ∧ AllFit cs (c.onModerator g)

/-- A member is added with a known status, under a name of which there is no other instance. -/
def Apart (c : GroupChange) (g : Roster) : Prop :=
  c.op = .Add → (c.participant.isOnline ∨ c.participant.isOffline) ∧
    ∀ key ∈ c.name.resetId, ∀ p ∈ g.lookup key, p.name = some c.name

def AllApart : List GroupChange → Roster → Prop
  | [], _ => True
  | c :: cs, g => c.Apart g ∧ AllApart cs (c.onModerator g)

instance decidableApart (c : GroupChange) (g : Roster) : Decidable (c.Apart g) :=
  inferInstanceAs (Decidable (_ → _))

instance decidableAllApart : (cs : List GroupChange) → (g : Roster) → Decidable (AllApart cs g)
  | [], _ => inferInstanceAs (Decidable True)
  | c :: cs, g =>
    have := decidableAllApart cs (c.onModerator g)
    inferInstanceAs (Decidable (_ ∧ _))

/-! ## The moderator's roster -/

section members
variable {c : GroupChange} {g : Roster} {key : ProtoName} {name : ProtoName} {p : Participant}

theorem members_of_ne {g' : Roster} (hother : ∀ k ≠ key, g'.lookup k = g.lookup k)
    (hone : ∀ q ∈ g.lookup key, q.name = some c.name)
    (hone' : ∀ q ∈ g'.lookup key, q.name = some c.name) (hname : name ≠ c.name) :
    g'.members name = g.members name := by
  have hnone {g : Roster} (hone : ∀ q ∈ g.lookup key, q.name = some c.name) :
      (g.lookup key).filter (fun q => q.name = some name) = none := by
    refine Option.filter_eq_none_iff.mpr fun q hq hqn => hname ?_
    simpa using (by simpa using hqn : q.name = some name).symm.trans (hone q hq)
  simp only [Roster.members]
  cases hr : name.resetId with
  | none => rfl
  | some k =>
    rw [Option.bind_some, Option.bind_some]
    by_cases hk : k = key
    · -- another instance of the name, of which there is none
      rw [hk, hnone hone, hnone hone']
    · rw [hother k hk]

theorem members_insert (hkey : c.name.resetId = some key) (hp : p.name = some c.name)
    (hone : ∀ q ∈ g.lookup key, q.name = some c.name) :
    Roster.members (g.insert key p) = update g.members c.name (some p) := by
  funext name
  by_cases hname : name = c.name
  · subst hname
    simp [Roster.members, hkey, hp]
  · rw [update_of_ne hname]
    refine members_of_ne (fun k hk => AList.lookup_insert_ne hk) hone (fun q hq => ?_) hname
    rw [AList.lookup_insert] at hq
    cases hq
    exact hp

theorem members_erase (hkey : c.name.resetId = some key)
    (hone : ∀ q ∈ g.lookup key, q.name = some c.name) :
    Roster.members (g.erase key) = update g.members c.name none := by
  funext name
  by_cases hname : name = c.name
  · subst hname
    simp [Roster.members, hkey]
  · rw [update_of_ne hname]
    refine members_of_ne (fun k hk => AList.lookup_erase_ne hk) hone (fun q hq => ?_) hname
    rw [AList.lookup_erase] at hq
    cases hq

/-- The moderator's roster follows the changes it commits. -/
theorem Fits.members (h : c.Fits g) : (c.onModerator g).members = c.onMembers g.members := by
  obtain ⟨key, hkey, hop⟩ := h
  unfold onModerator onMembers
  rw [hkey]
  have hold (hl : g.lookup key = some c.participant) : g.members c.name = some c.participant := by
    simp [Roster.members, hkey, hl, c.named]
  have hone (hl : g.lookup key = some c.participant) : ∀ q ∈ g.lookup key,
      q.name = some c.name := by
    intro q hq
    rw [hl] at hq
    cases hq
    exact c.named
  cases hc : c.op with
  | Add =>
    rw [hc] at hop
    exact members_insert hkey c.named hop
  | Remove =>
    rw [hc] at hop
    exact members_erase hkey (hone hop)
  | Rejoin =>
    rw [hc] at hop
    obtain ⟨hl, hstatus⟩ := hop
    dsimp only
    rw [hold hl, Option.getD_some]
    split
    · exact members_insert hkey c.named (hone hl)
    · have hsame : c.participant.setStatus .Online = c.participant := by
        have honline := hstatus.resolve_right ‹_›
        simp only [Participant.isOnline, decide_eq_true_eq] at honline
        simp [Participant.setStatus, ← honline]
      rw [hsame, ← hold hl, update_eq_self]

theorem sound_insert (hp : p.name = some name) (hkey : name.resetId = some key)
    (hstatus : p.isOnline ∨ p.isOffline) (hg : g.Sound) : Roster.Sound (g.insert key p) := by
  intro k q hl
  obtain ⟨rfl, rfl⟩ | ⟨-, hl⟩ := AList.lookup_insert_iff.mp hl
  · exact ⟨⟨name, hp, hkey⟩, hstatus⟩
  · exact hg k q hl

theorem Fits.sound (h : c.Fits g) (ha : c.Apart g) (hg : g.Sound) : (c.onModerator g).Sound := by
  obtain ⟨key, hkey, -⟩ := h
  unfold onModerator
  rw [hkey]
  cases hc : c.op with
  | Add => exact sound_insert c.named hkey (ha hc).1 hg
  | Remove => exact fun k q hl => hg k q (AList.lookup_erase_iff.mp hl).2
  | Rejoin =>
    dsimp only
    split
    · refine sound_insert c.named hkey (.inl ?_) hg
      simp [Participant.isOnline, Participant.setStatus]
    · exact hg

theorem AllFit.members {cs : List GroupChange} (h : AllFit cs g) :
    (cs.foldl (fun g c => c.onModerator g) g).members =
      cs.foldl (fun m c => c.onMembers m) g.members := by
  induction cs generalizing g with
  | nil => rfl
  | cons c cs ih => rw [List.foldl_cons, List.foldl_cons, ih h.2, h.1.members]

theorem onMembers_comm {a b : GroupChange} (h : a.name ≠ b.name) (m : Members) :
    b.onMembers (a.onMembers m) = a.onMembers (b.onMembers m) := by
  unfold onMembers
  rw [update_of_ne h, update_of_ne h.symm, update_comm h]

end members

end GroupChange

/-! ## What is handed over -/

namespace ControllerSender

theorem onSendMessage_returns (m : Publish) (missing : List ProtoName) :
    Returns (· = [.toSlim m]) (onSendMessage m missing) :=
  .bind _ fun _ => .bind _ fun _ => .pure rfl

theorem onMessage_returns (m : Publish) :
    Returns (fun out => ∀ o ∈ out, o = .toSlim m) (onMessage m) := by
  have send (missing : List ProtoName) :
      Returns (fun out => ∀ o ∈ out, o = .toSlim m) (onSendMessage m missing) :=
    (onSendMessage_returns m missing).mono fun out h => by simp [h]
  have none : ∀ o ∈ ([] : SessionOutput), o = .toSlim m := by simp
  refine .bind _ fun s => .ite (.throw _) ?_
  -- one case for each group of message types, in the order of the source
  split
  case h_13 =>
    refine .bind _ fun payload => .ite ?_ (send _)
    exact .bind _ fun _ => .bind _ fun _ => send _
  case h_16 => exact .panic _
  all_goals first
    | exact send _
    | exact .pure none
    | exact .bind _ fun _ => .pure none
    | skip
  all_goals
    refine .ite (.throw _) ?_
    split <;> exact .bind _ fun _ => send _

end ControllerSender

/-! ## Commits -/

namespace SessionModerator

variable {G : Type} {X : MlsLib G} {msg : Publish} {s : SessionModerator G} {c : GroupChange}

section frames
variable {α : Type} (X : MlsLib G) (msg : Publish) (name : ProtoName)

theorem onCommon_roster (x : SessionControllerCommon.M α) :
    Frame groupList (onCommon x : M G α) := fun _ => rfl

theorem onInner_roster (x : Session.M α) : Frame groupList (onInner x : M G α) :=
  fun _ => rfl

theorem onMls_roster (x : MlsModeratorState.M G α) : Frame groupList (onMls x) :=
  onMls_frame (fun _ _ => rfl) x

theorem onTask_roster (f : ModeratorTask → ModeratorTask.Result) :
    Frame groupList (onTask f : M G Unit) :=
  .bind (.read _) fun _ => .bind (.expect _ _) fun _ => .bind (.ofExcept _) fun _ =>
    .modify fun _ => rfl

theorem addEndpoint_roster (p : Participant) :
    Frame groupList (addEndpoint p : M G SessionOutput) :=
  .bind (.expect _ _) fun _ => .bind (onCommon_roster _) fun _ => .bind (onInner_roster _) fun _ =>
    .bind (.modify fun _ => rfl) fun _ => .pure _

theorem removeEndpoint_roster :
    Frame groupList (removeEndpoint name : M G Unit) :=
  .bind (onCommon_roster _) fun _ => onInner_roster _

theorem withId_roster (id : BitVec 128) :
    Frame groupList (withId name id : M G ProtoName) := .ite (.pure _) (.panic _)

theorem addToMls_roster : Frame groupList (addToMls X msg) := by
  refine .bind (onMls_roster _) fun added => ?_
  cases added with
  | none => exact .pure _
  | some _ => exact .bind (onMls_roster _) fun _ => .pure _

theorem handleTaskError_roster (e : SessionError) :
    Frame groupList (handleTaskError e : M G SessionError) :=
  .bind (.read _) fun _ => .bind (onCommon_roster _) fun _ => .bind (.modify fun _ => rfl) fun _ =>
    .pure _

theorem rejoinMls_roster (keyPackage : Bytes) :
    Frame groupList (rejoinMls X name keyPackage) := by
  refine .bind (.mapErr (onMls_roster _) handleTaskError_roster) fun rejoined => ?_
  cases rejoined with
  | none => exact .pure _
  | some _ => exact .bind (onMls_roster _) fun _ => .pure _

theorem sendGroupUpdate_roster (op : GroupUpdateOp) (p : Participant) (ps : List Participant)
    (mls : Option MlsPayload) : Frame groupList (sendGroupUpdate op p ps mls : M G _) :=
  .bind (onCommon_roster _) fun _ => .bind (.read _) fun _ => .bind (onCommon_roster _) fun _ =>
    .pure _

end frames

/-- The change is told in what is handed over. -/
def Tells (out : SessionOutput) (c : GroupChange) : Prop :=
  ∃ m : Publish, .toSlim m ∈ out ∧ m.type = .GroupUpdate ∧ m.payload = c.msg.payload

section tells
variable {out out' : SessionOutput} {c : GroupChange} {m : Publish} {id : Nat}

theorem Tells.append (h : Tells (out ++ out') c) : Tells out c ∨ Tells out' c := by
  obtain ⟨m, hm, ht, hp⟩ := h
  rcases List.mem_append.mp hm with hm | hm
  · exact .inl ⟨m, hm, ht, hp⟩
  · exact .inr ⟨m, hm, ht, hp⟩

theorem not_tells_nil : ¬ Tells [] c := by
  rintro ⟨m, hm, -⟩
  cases hm

theorem not_tells_of_type (hout : ∀ o ∈ out, o = .toSlim m) (ht : m.type ≠ .GroupUpdate) :
    ¬ Tells out c := by
  rintro ⟨m', hm, ht', -⟩
  cases hout _ hm
  exact ht ht'

theorem onSender_returns {α : Type} {Q : α → Prop} {x : ControllerSender.M α} (h : Returns Q x) :
    Returns Q (onSender x : M G α) := by
  unfold onSender onCommon SessionControllerCommon.onSender
  exact h.zoom.zoom

theorem onSender_tells {s' : SessionModerator G} (ht : m.type ≠ .GroupUpdate)
    (h : onSender (ControllerSender.onMessage m) s = (.ok out, s')) : ¬ Tells out c :=
  not_tells_of_type (onSender_returns (ControllerSender.onMessage_returns m) s out s' h) ht

theorem sendControlMessage_tells {dst : ProtoName} {t : SessionMessageType}
    {payload : CommandPayload} {metadata : List (String × String)} {broadcast : Bool}
    {s' : SessionModerator G} (ht : t ≠ .GroupUpdate)
    (h : onCommon (sendControlMessage dst t id payload metadata broadcast) s = (.ok out, s')) :
    ¬ Tells out c := by
  have hret : Returns (fun out => ¬ Tells out c)
      (sendControlMessage dst t id payload metadata broadcast) :=
    .bind _ fun common => (ControllerSender.onMessage_returns _).zoom.mono fun out hout =>
      not_tells_of_type hout (by simpa [Publish.type, createControlMessage] using ht)
  exact hret.zoom s out s' h

theorem sendGroupUpdate_tells {op : GroupUpdateOp} {p : Participant} {ps : List Participant}
    {mls : Option MlsPayload} {s' : SessionModerator G}
    (h : sendGroupUpdate op p ps mls s = (.ok (id, out), s')) (hc : Tells out c) :
    c.op = op ∧ c.participant = p := by
  have hret : Returns (fun r => ∀ o ∈ r.2, ∃ m : Publish, o = .toSlim m ∧ m.payload =
      some (.commandPayload (some (.groupUpdate ⟨op.toInt, some p, ps, mls⟩))))
      (sendGroupUpdate op p ps mls : M G _) := by
    refine .bind _ fun id => .bind _ fun st => .bind_of (.zoom (.bind _ fun c =>
      (ControllerSender.onMessage_returns _).zoom.mono fun out hout => ?_))
      fun out hout => .pure hout
    exact fun o ho => ⟨_, hout o ho, rfl⟩
  obtain ⟨m, hm, -, hp⟩ := hc
  obtain ⟨m', hm', hp'⟩ := hret s _ s' h _ hm
  cases hm'
  rw [hp', c.carried] at hp
  simp only [Option.some.injEq, Content.commandPayload.injEq,
    CommandPayload.groupUpdate.injEq, GroupUpdatePayload.mk.injEq] at hp
  have hop := congrArg ofInt hp.1
  rw [ofInt_toInt, ofInt_toInt] at hop
  exact ⟨(Option.some.inj hop).symm, hp.2.1.symm⟩

/-- Whether a handler tells of a change, as a check. -/
def told (c : GroupChange) (r : Outcome SessionError SessionOutput) : Bool :=
  match r with
  | .ok out => out.any fun
    | .toSlim m => m.type = .GroupUpdate ∧ m.payload = c.msg.payload
    | .toApp _ => false
  | _ => false

theorem tells_of_told {x : M G SessionOutput} (h : told c (x s).1) :
    ∃ out, x s = (.ok out, (x s).2) ∧ Tells out c := by
  rcases hx : x s with ⟨out | _ | _, s'⟩ <;> rw [hx] at h
  · refine ⟨out, rfl, ?_⟩
    obtain ⟨o, ho, hm⟩ := List.any_eq_true.mp h
    cases o with
    | toSlim m => exact ⟨m, ho, by simpa using hm⟩
    | toApp _ => cases hm
  · cases h
  · cases h

end tells

section handlers
variable {X : MlsLib G} {msg : Publish} {s s' : SessionModerator G} {out : SessionOutput}
  {c : GroupChange} {removed : Participant} {participants : List Participant}
  {mls : Option MlsPayload} {ackTx : Option AckTx}

/-- An addition puts the member under its name without the id. -/
theorem onJoinReplyInner_commits (ht : msg.type = .JoinReply)
    (h : onJoinReplyInner X msg s = (.ok out, s')) (hc : Tells out c) :
    c.op = .Add ∧ ∃ key, c.name.resetId = some key ∧
      s'.groupList = s.groupList.insert key c.participant := by
  obtain ⟨rejected, s₁, h₁, h⟩ := bind_eq_ok.mp h
  have hs₁ := (rejectsJoinReply_frame X msg onMls_roster).ok h₁
  cases rejected with
  | true =>
    cases h
    exact absurd hc not_tells_nil
  | false =>
    obtain ⟨output, s₂, h₂, h⟩ := bind_eq_ok.mp h
    obtain ⟨_, s₃, h₃, h⟩ := bind_eq_ok.mp h
    obtain ⟨reply, -, h⟩ := ofExcept_bind_eq_ok.mp h
    obtain ⟨participant, -, h⟩ := okOr_bind_eq_ok.mp h
    obtain ⟨name, hname, h⟩ := ofExcept_bind_eq_ok.mp h
    obtain ⟨⟨commit, welcome⟩, s₄, h₄, h⟩ := bind_eq_ok.mp h
    obtain ⟨_, s₅, h₅, h⟩ := bind_eq_ok.mp h
    obtain ⟨key, hkey, h⟩ := expect_bind_eq_ok.mp h
    have hs : s₅.groupList = s.groupList := calc
      s₅.groupList = s₄.groupList := (addEndpoint_roster participant).ok h₅
      _ = s₃.groupList := (addToMls_roster X msg).ok h₄
      _ = s₂.groupList := (onTask_roster _).ok h₃
      _ = s₁.groupList := (onCommon_roster _).ok h₂
      _ = s.groupList := hs₁
    rw [modifyRoster, modify_bind_run, read_bind_run] at h
    split at h
    case' isTrue => obtain ⟨⟨updateId, updated⟩, s₆, h₆, h⟩ := bind_eq_ok.mp h
    all_goals
      obtain ⟨_, s₇, h₇, h⟩ := bind_eq_ok.mp h
      obtain ⟨_, _, ⟨⟩, h⟩ := bind_eq_ok.mp h
      obtain ⟨welcomeId, s₈, h₈, h⟩ := bind_eq_ok.mp h
      obtain ⟨welcomed, s₉, h₉, h⟩ := bind_eq_ok.mp h
      obtain ⟨_, s₁₀, h₁₀, h⟩ := bind_eq_ok.mp h
      cases h
      have hupdated := (hc.append.resolve_right (sendControlMessage_tells (by decide)
        h₉)).append.resolve_left (onSender_tells (by simp [ht]) h₂)
    · obtain ⟨hop, hp⟩ := sendGroupUpdate_tells h₆ hupdated
      have hn : c.name = name := by
        have := c.named
        rw [hp] at this
        simpa [Participant.getName, this, SessionError.ofMessage] using hname
      refine ⟨hop, key, hn ▸ hkey, ?_⟩
      rw [(onTask_roster _).ok h₁₀, (onCommon_roster _).ok h₉, (onCommon_roster _).ok h₈,
        (onTask_roster _).ok h₇, (sendGroupUpdate_roster _ _ _ _).ok h₆, hs, hp]
    · exact absurd hupdated not_tells_nil

/-- A removal takes the entry of the name, which is there, out of the roster. -/
theorem removeParticipantAndComputeMls_roster {name : ProtoName}
    (h : removeParticipantAndComputeMls X name msg s = (.ok (removed, participants, mls), s')) :
    ∃ key, name.resetId = some key ∧ s.groupList.lookup key = some removed ∧
      s'.groupList = s.groupList.erase key := by
  unfold removeParticipantAndComputeMls at h
  obtain ⟨key, hkey, h⟩ := expect_bind_eq_ok.mp h
  obtain ⟨entry, hentry, h⟩ := expect_bind_eq_ok.mp h
  obtain ⟨_, s₁, h₁, h⟩ := bind_eq_ok.mp h
  obtain ⟨commit, s₂, h₂, h⟩ := bind_eq_ok.mp h
  have hs : s₂.groupList = s.groupList.erase key :=
    ((onMls_roster _).ok (mapErr_eq_ok.mp h₂)).trans ((removeEndpoint_roster name).ok h₁)
  cases commit with
  | none =>
    cases h
    exact ⟨key, hkey, hentry, hs⟩
  | some commit =>
    obtain ⟨id, s₃, h₃, h⟩ := bind_eq_ok.mp h
    cases h
    exact ⟨key, hkey, hentry, ((onMls_roster _).ok h₃).trans hs⟩

theorem remove_commits {name : ProtoName} {id : Nat} {s₁ s₂ s₃ : SessionModerator G}
    (hs₁ : s₁.groupList = s.groupList)
    (h₁ : removeParticipantAndComputeMls X name msg s₁ = (.ok (removed, participants, mls), s₂))
    (h₂ : sendGroupUpdate .Remove removed participants mls s₂ = (.ok (id, out), s₃))
    (hs' : s'.groupList = s₃.groupList) (hc : Tells out c) :
    c.op = .Remove ∧ ∃ key, s.groupList.lookup key = some c.participant ∧
      s'.groupList = s.groupList.erase key := by
  obtain ⟨key, -, hentry, hs₂⟩ := removeParticipantAndComputeMls_roster h₁
  obtain ⟨hop, hp⟩ := sendGroupUpdate_tells h₂ hc
  refine ⟨hop, key, ?_, ?_⟩
  · rw [hp, ← hs₁, hentry]
  · rw [hs', (sendGroupUpdate_roster _ _ _ _).ok h₂, hs₂, hs₁]

theorem onLeaveRequest_commits (ht : msg.type = .LeaveRequest)
    (h : onLeaveRequest X msg ackTx s = (.ok out, s')) (hc : Tells out c) :
    c.op = .Remove ∧ ∃ key, s.groupList.lookup key = some c.participant ∧
      s'.groupList = s.groupList.erase key := by
  unfold onLeaveRequest at h
  rw [read_bind_run] at h
  split at h
  · cases h
    exact absurd hc not_tells_nil
  · cases hl : s.groupList.lookup msg.destination with
    | none =>
      simp only [id, hl] at h
      cases h
    | some entry =>
      simp only [id, hl] at h
      obtain ⟨name, -, h⟩ := ofExcept_bind_eq_ok.mp h
      obtain ⟨entryId, -, h⟩ := expect_bind_eq_ok.mp h
      obtain ⟨dst, s₁, h₁, h⟩ := bind_eq_ok.mp h
      obtain ⟨id, s₂, h₂, h⟩ := bind_eq_ok.mp h
      obtain ⟨⟨removed, participants, mls⟩, s₃, h₃, h⟩ := bind_eq_ok.mp h
      have hs₁ := (withId_roster _ _).ok h₁
      have hs₂ : s₂.groupList = s.groupList := ((onCommon_roster _).ok h₂).trans hs₁
      split at h
      · obtain ⟨⟨updateId, updated⟩, s₄, h₄, h⟩ := bind_eq_ok.mp h
        obtain ⟨_, s₅, h₅, h⟩ := bind_eq_ok.mp h
        cases h
        have hs₅ : s₅.groupList = s₄.groupList := (onTask_roster _).ok h₅
        exact remove_commits hs₂ h₃ h₄ hs₅ hc
      · obtain ⟨_, s₄, h₄, h⟩ := bind_eq_ok.mp h
        obtain ⟨sent, s₅, h₅, h⟩ := bind_eq_ok.mp h
        obtain ⟨_, s₆, h₆, h⟩ := bind_eq_ok.mp h
        cases h
        refine absurd hc (onSender_tells ?_ h₅)
        exact fun hu => nomatch ht.symm.trans hu

theorem onDisconnectionDetected_commits (h : onDisconnectionDetected X msg ackTx s = (.ok out, s'))
    (hc : Tells out c) :
    c.op = .Remove ∧ ∃ key, s.groupList.lookup key = some c.participant ∧
      s'.groupList = s.groupList.erase key := by
  unfold onDisconnectionDetected at h
  dsimp only at h
  obtain ⟨key, -, h⟩ := expect_bind_eq_ok.mp h
  rw [read_bind_run] at h
  split at h
  · cases h
    exact absurd hc not_tells_nil
  rw [control, read_bind_run] at h
  have hout {e : Except SessionError Message} {os : SessionOutput}
      (hos : ∀ m, .toSlim m ∈ os → m.type = .LeaveReply) : ¬ Tells (.toApp e :: os) c := by
    rintro ⟨m, hm, ht, -⟩
    exact nomatch (hos m (by simpa using hm)).symm.trans ht
  have htype (common : SessionControllerCommon) (dst : ProtoName) : (common.createControlMessage dst
      .LeaveReply msg.id .leaveReply false).type = .LeaveReply := rfl
  split at h
  case' isTrue =>
    obtain ⟨_, t, h₀, h⟩ := bind_eq_ok.mp h
    have hs₀ := (onCommon_roster _).ok h₀
  case' isFalse => have hs₀ : s.groupList = s.groupList := rfl
  all_goals
    split at h
    · obtain ⟨_, t₁, -, h⟩ := bind_eq_ok.mp h
      obtain ⟨_, t₂, -, h⟩ := bind_eq_ok.mp h
      cases h
      exact absurd hc (hout (by simp [htype]))
    split at h
    · cases h
      exact absurd hc (hout (by simp [htype]))
    rw [setTask, modify_bind_run] at h
    obtain ⟨⟨removed, participants, mls⟩, t₁, h₁, h⟩ := bind_eq_ok.mp h
    obtain ⟨⟨id, updated⟩, t₂, h₂, h⟩ := bind_eq_ok.mp h
    obtain ⟨_, t₃, h₃, h⟩ := bind_eq_ok.mp h
    cases h
    refine remove_commits ?_ h₁ h₂ ((onTask_roster _).ok h₃) (hc.append.resolve_left
      (hout (by simp [htype])))
    exact hs₀

/-- A rejoin sets an entry online, if it was offline. -/
theorem onRejoinRequest_commits (h : onRejoinRequest X msg s = (.ok out, s')) (hc : Tells out c) :
    c.op = .Rejoin ∧ ∃ key, s.groupList.lookup key = some c.participant ∧
      s'.groupList = if c.participant.isOffline
        then s.groupList.insert key (c.participant.setStatus .Online) else s.groupList := by
  obtain ⟨_, -, h⟩ := okOr_bind_eq_ok.mp h
  obtain ⟨payload, -, h⟩ := ofExcept_bind_eq_ok.mp h
  obtain ⟨name, -, h⟩ := okOr_bind_eq_ok.mp h
  obtain ⟨key, -, h⟩ := expect_bind_eq_ok.mp h
  rw [read_bind_run] at h
  cases hl : s.groupList.lookup key with
  | none =>
    simp only [id, hl] at h
    cases h
    exact absurd hc not_tells_nil
  | some entry =>
    simp only [id, hl] at h
    split at h
    · cases h
      exact absurd hc not_tells_nil
    split at h
    · cases h
      exact absurd hc not_tells_nil
    rw [setTask, modify_bind_run] at h
    obtain ⟨⟨commitId, welcome, commit⟩, s₁, h₁, h⟩ := bind_eq_ok.mp h
    rw [control, read_bind_run] at h
    obtain ⟨_, s₂, h₂, h⟩ := bind_eq_ok.mp h
    have hs₁ := (rejoinMls_roster X name payload.keyPackage).ok h₁
    have hs₂ : s₂.groupList = s.groupList := ((onTask_roster _).ok h₂).trans hs₁
    split at h
    case' isTrue hoff =>
      rw [modifyRoster, modify_bind_run] at h
      obtain ⟨_, s₃, h₃, h⟩ := bind_eq_ok.mp h
    case' isFalse hoff => skip
    all_goals
      rw [read_bind_run] at h
      obtain ⟨⟨id, updated⟩, s₄, h₄, h⟩ := bind_eq_ok.mp h
      obtain ⟨_, s₅, h₅, h⟩ := bind_eq_ok.mp h
      cases h
      obtain ⟨hop, hp⟩ := sendGroupUpdate_tells h₄ (hc.append |>.resolve_left
        (not_tells_of_type (fun _ ho => List.mem_singleton.mp ho) fun heq => by cases heq))
      refine ⟨hop, key, by rw [hp, hl], ?_⟩
      rw [hp, (onTask_roster _).ok h₅, (sendGroupUpdate_roster _ _ _ _).ok h₄]
    · rw [if_neg hoff, hs₂]
    · rw [if_pos hoff, (addEndpoint_roster _).ok h₃, hs₂]

end handlers

/-- The moderator commits a change: it handles a message, changes its roster, and tells the
group. -/
inductive Commits (X : MlsLib G) (s : SessionModerator G) (c : GroupChange) :
    SessionModerator G → Prop
  | joinReply {msg : Publish} {out : SessionOutput} {s' : SessionModerator G} :
      msg.type = .JoinReply → onJoinReplyInner X msg s = (.ok out, s') → Tells out c →
      Commits X s c s'
  | leaveRequest {msg : Publish} {ackTx : Option AckTx} {out : SessionOutput}
      {s' : SessionModerator G} :
      msg.type = .LeaveRequest → onLeaveRequest X msg ackTx s = (.ok out, s') → Tells out c →
      Commits X s c s'
  | disconnection {msg : Publish} {ackTx : Option AckTx} {out : SessionOutput}
      {s' : SessionModerator G} :
      onDisconnectionDetected X msg ackTx s = (.ok out, s') → Tells out c → Commits X s c s'
  | rejoinRequest {msg : Publish} {out : SessionOutput} {s' : SessionModerator G} :
      onRejoinRequest X msg s = (.ok out, s') → Tells out c → Commits X s c s'

theorem Commits.of_joinReply (ht : msg.type = .JoinReply)
    (h : told c (onJoinReplyInner X msg s).1) : Commits X s c (onJoinReplyInner X msg s).2 :=
  have ⟨_, hrun, htells⟩ := tells_of_told h
  .joinReply ht hrun htells

theorem Commits.of_leaveRequest {ackTx : Option AckTx} (ht : msg.type = .LeaveRequest)
    (h : told c (onLeaveRequest X msg ackTx s).1) :
    Commits X s c (onLeaveRequest X msg ackTx s).2 :=
  have ⟨_, hrun, htells⟩ := tells_of_told h
  .leaveRequest ht hrun htells

/-- Changes committed one after the other; what happens in between leaves the roster alone. -/
inductive CommitsAll (X : MlsLib G) :
    SessionModerator G → List GroupChange → SessionModerator G → Prop
  | nil {s s' : SessionModerator G} : s'.groupList = s.groupList → CommitsAll X s [] s'
  | cons {s s₁ s₂ s' : SessionModerator G} {c : GroupChange} {cs : List GroupChange} :
      s₁.groupList = s.groupList → Commits X s₁ c s₂ → CommitsAll X s₂ cs s' →
      CommitsAll X s (c :: cs) s'

section sequences
variable {X : MlsLib G} {s s' : SessionModerator G} {c : GroupChange} {cs : List GroupChange}

theorem Commits.roster (h : Commits X s c s') (hs : s.groupList.Sound) (ha : c.Apart s.groupList) :
    c.Fits s.groupList ∧ s'.groupList = c.onModerator s.groupList := by
  have hkeyed {key : ProtoName} (hl : s.groupList.lookup key = some c.participant) :
      c.name.resetId = some key := by
    obtain ⟨name, hname, hkey⟩ := (hs key c.participant hl).1
    rw [c.named] at hname
    cases hname
    exact hkey
  have removed (h : c.op = .Remove ∧ ∃ key, s.groupList.lookup key = some c.participant ∧
      s'.groupList = s.groupList.erase key) :
      c.Fits s.groupList ∧ s'.groupList = c.onModerator s.groupList := by
    obtain ⟨hop, key, hl, hs'⟩ := h
    have hkey := hkeyed hl
    exact ⟨⟨key, hkey, by rw [hop]; exact hl⟩, by rw [hs', GroupChange.onModerator, hkey, hop]⟩
  cases h with
  | joinReply ht hrun hc =>
    obtain ⟨hop, key, hkey, hs'⟩ := onJoinReplyInner_commits ht hrun hc
    exact ⟨⟨key, hkey, by rw [hop]; exact (ha hop).2 key hkey⟩,
      by rw [hs', GroupChange.onModerator, hkey, hop]⟩
  | leaveRequest ht hrun hc => exact removed (onLeaveRequest_commits ht hrun hc)
  | disconnection hrun hc => exact removed (onDisconnectionDetected_commits hrun hc)
  | rejoinRequest hrun hc =>
    obtain ⟨hop, key, hl, hs'⟩ := onRejoinRequest_commits hrun hc
    have hkey := hkeyed hl
    exact ⟨⟨key, hkey, by rw [hop]; exact ⟨hl, (hs key _ hl).2⟩⟩,
      by rw [hs', GroupChange.onModerator, hkey, hop]⟩

theorem CommitsAll.roster (h : CommitsAll X s cs s') (hs : s.groupList.Sound)
    (ha : GroupChange.AllApart cs s.groupList) :
    GroupChange.AllFit cs s.groupList ∧
      s'.groupList = cs.foldl (fun g c => c.onModerator g) s.groupList := by
  induction h with
  | nil hs' => exact ⟨trivial, hs'⟩
  | cons hs₁ hc _ ih =>
    rw [← hs₁] at hs ha ⊢
    obtain ⟨hfits, hs₂⟩ := hc.roster hs ha.1
    rw [hs₂] at ih
    obtain ⟨hall, hs'⟩ := ih (hfits.sound ha.1 hs) ha.2
    exact ⟨⟨hfits, hall⟩, hs'⟩

end sequences

end SessionModerator

end Slim
