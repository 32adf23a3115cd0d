import Mathlib.Data.List.Range
import Slim.Lib.Lookup
import Slim.Session.MlsState

/-!
# Commits are applied in order

`deliver`: control messages given to `process_control_message` one after the other. After the
welcome `w`, and whatever the order of arrival, the commits handed to the library are the longest
run `w + 1, w + 2, …` of ids that have arrived (`Delivered`, kept by `Delivered.step`).

`retries_iff`: what becomes of a welcome or a commit that the library rejects.
-/

namespace Slim

open CommandPayload SessionError Prog

/-- The commit a `GroupUpdate` carries. -/
def Publish.commit (msg : Publish) : Option MlsPayload :=
  if msg.type = .GroupUpdate then
    match msg.extract asGroupUpdate with
    | .ok payload => payload.mls
    | .error _ => none
  else none

/-- `ids` is the longest run `w + 1, w + 2, …` of ids in `arrived`. -/
def LongestRun (w : Nat) (arrived : Nat → Prop) (ids : List Nat) : Prop :=
  ids = List.range' (w + 1) ids.length ∧ (∀ i ∈ ids, arrived i) ∧ ¬ arrived (w + ids.length + 1)

/-- A longest run is determined by what has arrived. -/
theorem LongestRun.unique {w : Nat} {arrived : Nat → Prop} {ids ids' : List Nat}
    (h : LongestRun w arrived ids) (h' : LongestRun w arrived ids') : ids = ids' := by
  have hle : ∀ {ids ids' : List Nat}, LongestRun w arrived ids → LongestRun w arrived ids' →
      ids.length ≤ ids'.length := by
    intro ids ids' h h'
    by_contra hlt
    refine h'.2.2 (h.2.1 _ ?_)
    rw [h.1, List.mem_range'_1]
    omega
  rw [h.1, h'.1, Nat.le_antisymm (hle h h') (hle h' h)]

namespace MlsLib

variable {G : Type} (X : MlsLib G) {cs : List MlsPayload}

/-- The group after `cs`, if the library accepts each of them. -/
def applyCommits : List MlsPayload → G → Option G
  | [], g => some g
  | c :: cs, g =>
    match X.processCommit c.mlsContent g with
    | (.ok (), g') => applyCommits cs g'
    | (.error _, _) => none

theorem applyCommits_append (cs : List MlsPayload) (c : MlsPayload) (g : G) :
    X.applyCommits (cs ++ [c]) g = (X.applyCommits cs g).bind (X.applyCommits [c]) := by
  induction cs generalizing g with
  | nil => rfl
  | cons c' cs ih =>
    simp only [List.cons_append, applyCommits]
    split
    · exact ih _
    · rfl

theorem applyCommits_of_append {cs' : List MlsPayload} {g : G}
    (h : (X.applyCommits (cs ++ cs') g).isSome) : (X.applyCommits cs g).isSome := by
  induction cs generalizing g with
  | nil => rfl
  | cons c cs ih =>
    simp only [List.cons_append, applyCommits] at h ⊢
    split at h
    · exact ih h
    · cases h

theorem processCommit_of_applyCommits {c : MlsPayload} {g g' : G}
    (h : X.applyCommits cs g = some g') (hs : (X.applyCommits (cs ++ [c]) g).isSome) :
    ∃ g'', X.processCommit c.mlsContent g' = (.ok (), g'') ∧
      X.applyCommits (cs ++ [c]) g = some g'' := by
  rw [applyCommits_append, h, Option.bind_some, applyCommits] at hs
  rcases hp : X.processCommit c.mlsContent g' with ⟨_ | _, g''⟩ <;> simp only [hp] at hs
  · cases hs
  · refine ⟨g'', rfl, ?_⟩
    rw [applyCommits_append, h, Option.bind_some, applyCommits, hp]
    rfl

/-- Every one of these commits that the library accepts moves the group to the next epoch. -/
def CommitsAdvance (cs : List MlsPayload) : Prop :=
  ∀ c ∈ cs, ∀ g g', X.processCommit c.mlsContent g = (.ok (), g') →
    X.epoch g' = (X.epoch g).map (· + 1)

theorem epoch_applyCommits (hX : X.CommitsAdvance cs) {g₁ g₂ g₁' g₂' : G}
    (h₁ : X.applyCommits cs g₁ = some g₁') (h₂ : X.applyCommits cs g₂ = some g₂')
    (he : X.epoch g₁ = X.epoch g₂) : X.epoch g₁' = X.epoch g₂' := by
  induction cs generalizing g₁ g₂ with
  | nil =>
    cases h₁
    cases h₂
    exact he
  | cons c cs ih =>
    simp only [applyCommits] at h₁ h₂
    rcases hp₁ : X.processCommit c.mlsContent g₁ with ⟨_ | ⟨⟨⟩⟩, k₁⟩ <;> simp only [hp₁] at h₁
    · cases h₁
    rcases hp₂ : X.processCommit c.mlsContent g₂ with ⟨_ | ⟨⟨⟩⟩, k₂⟩ <;> simp only [hp₂] at h₂
    · cases h₂
    have hc := hX c List.mem_cons_self
    exact ih (fun c' hc' => hX c' (List.mem_cons_of_mem c hc')) h₁ h₂
      (by rw [hc _ _ hp₁, hc _ _ hp₂, he])

end MlsLib

namespace MlsState

variable {G : Type} (X : MlsLib G)

/-- Control messages that arrive one after the other. -/
def deliver (localName : ProtoName) (s : MlsState G) (msgs : List Publish) : MlsState G :=
  msgs.foldl (fun s m => (processControlMessage X m localName s).2) s

/-- The state after a first welcome with commit id `w`. -/
def Welcomed (w : UInt32) (s : MlsState G) : Prop :=
  ∃ (s₀ : MlsState G) (msg : Publish) (payload : GroupWelcomePayload) (mls : MlsPayload),
    s₀.lastMlsMsgId = 0 ∧ s₀.storedCommitsProposals = ∅ ∧ s₀.handed = [] ∧
    msg.extract asGroupWelcome = .ok payload ∧ payload.mls = some mls ∧
    mls.commitId = w ∧ processWelcomeMessage X msg s₀ = (.ok (), s)

/-! ## The functions on commits -/

section functions

variable {msg : Publish} {c : MlsPayload}

theorem commit_eq_some :
    msg.commit = some c ↔ msg.type = .GroupUpdate ∧
      ∃ payload, msg.extract asGroupUpdate = .ok payload ∧ payload.mls = some c := by
  unfold Publish.commit
  by_cases ht : msg.type = .GroupUpdate
  · cases he : msg.extract asGroupUpdate <;> simp [ht]
  · simp [ht]

theorem commitIdOf_of_commit (h : msg.commit = some c) : commitIdOf msg = .ok c.commitId := by
  obtain ⟨ht, payload, he, hp⟩ := commit_eq_some.mp h
  unfold Publish.extract at he
  unfold commitIdOf
  cases hc : msg.extractCommandPayload with
  | error e =>
    rw [hc] at he
    cases he
  | ok command =>
    rw [hc] at he
    have ha : asGroupUpdate command = .ok payload := he
    simp only [ofMessage, ht, bind, Except.bind, ha, hp]

theorem processStored_of_commit (h : msg.commit = some c) (localName : ProtoName) (s : MlsState G) :
    processStored X msg localName s = processCommitMessage X c s := by
  obtain ⟨ht, payload, he, hp⟩ := commit_eq_some.mp h
  simp only [processStored, ht, Publish.read, he, ofMessage, Prog.ofExcept, hp,
    Prog.okOr, pure, bind]

/-- The stored commit `c` has been given to the library. -/
def took (s : MlsState G) (c : MlsPayload) (g : G) : MlsState G :=
  { s with
    mls := g
    lastMlsMsgId := s.lastMlsMsgId + 1
    storedCommitsProposals := s.storedCommitsProposals.erase (s.lastMlsMsgId + 1)
    handed := s.handed ++ [c] }

variable {X} {s : MlsState G} {m : Publish} {localName : ProtoName} {fuel : Nat}

theorem processAllStored_next (fuel : Nat)
    (hl : s.storedCommitsProposals.lookup (s.lastMlsMsgId + 1) = some m) (hc : m.commit = some c) :
    processAllStored X localName (fuel + 1) s =
      match X.processCommit c.mlsContent s.mls with
      | (.ok (), g) => processAllStored X localName fuel (s.took c g)
      | (.error e, g) => (.err (.MlsOp e), s.took c g) := by
  simp only [processAllStored, read_bind_run, id, hl, modify_bind_run]
  rw [bind_run, processStored_of_commit X hc]
  simp only [processCommitMessage, modify_bind_run, call]
  rcases X.processCommit c.mlsContent s.mls with ⟨e | ⟨⟨⟩⟩, g⟩ <;> rfl

theorem processAllStored_stop (fuel : Nat)
    (hl : s.storedCommitsProposals.lookup (s.lastMlsMsgId + 1) = none) :
    processAllStored X localName fuel s = (.ok (), s) := by
  cases fuel with
  | zero => rfl
  | succ fuel =>
    simp only [processAllStored, read_bind_run, id, hl]
    rfl

theorem lookup_next_of_empty (hf : s.storedCommitsProposals.keys.length ≤ 0) :
    s.storedCommitsProposals.lookup (s.lastMlsMsgId + 1) = none := by
  rw [AList.lookup_eq_none, AList.mem_keys, List.length_eq_zero_iff.mp (Nat.le_zero.mp hf)]
  exact List.not_mem_nil

theorem keys_took (hl : s.storedCommitsProposals.lookup (s.lastMlsMsgId + 1) = some m)
    (hf : s.storedCommitsProposals.keys.length ≤ fuel + 1) (g : G) :
    (s.took c g).storedCommitsProposals.keys.length ≤ fuel := by
  have hmem := AList.mem_keys.mp (AList.lookup_isSome.mp (Option.isSome_of_eq_some hl))
  rw [took, AList.keys_erase, List.length_erase_of_mem hmem]
  omega

/-- A message is dropped, or stored; in both cases nothing else changes. -/
theorem isValidMsgId_of_commit (h : msg.commit = some c) (hl : s.lastMlsMsgId ≠ 0) :
    isValidMsgId msg s =
      if c.commitId ≤ s.lastMlsMsgId ∨ (s.storedCommitsProposals.lookup c.commitId).isSome then
        (.ok false, s)
      else (.ok true,
        { s with storedCommitsProposals := s.storedCommitsProposals.insert c.commitId msg }) := by
  simp only [isValidMsgId, read_bind_run, id, ite_run, if_neg hl, commitIdOf_of_commit h,
    ofExcept_ok_bind_run, pure_run, modify_bind_run]
  by_cases h₁ : c.commitId ≤ s.lastMlsMsgId
  · rw [if_pos h₁, if_pos (.inl h₁)]
  · by_cases h₂ : (s.storedCommitsProposals.lookup c.commitId).isSome
    · rw [if_neg h₁, if_pos h₂, if_pos (.inr h₂)]
    · rw [if_neg h₁, if_neg h₂, if_neg (not_or.mpr ⟨h₁, h₂⟩)]

end functions

/-! ## The invariant -/

/-- A set of `GroupUpdate`s that follow the welcome `w`: their ids are greater than `w` and
distinct, and the library accepts them in the moderator's order. -/
structure Updates (w : UInt32) (g₀ : G) (U : List Publish) : Prop where
  commit : ∀ m ∈ U, ∃ c, m.commit = some c ∧ w < c.commitId
  distinct : ∀ m ∈ U, ∀ m' ∈ U, ∀ c c', m.commit = some c → m'.commit = some c' →
    c.commitId = c'.commitId → m = m'
  accepted : ∀ cs : List MlsPayload, (∀ c ∈ cs, ∃ m ∈ U, m.commit = some c) →
    cs.map (·.commitId.toNat) = List.range' (w.toNat + 1) cs.length → (X.applyCommits cs g₀).isSome

/-- The state after the messages `D`, while stored ones are being processed: `handed` is a run from
`w + 1`, and what has arrived beyond it is stored. -/
structure Delivered (w : UInt32) (g₀ : G) (D : List Publish) (s : MlsState G) : Prop where
  last : s.lastMlsMsgId.toNat = w.toNat + s.handed.length
  run : s.handed.map (·.commitId.toNat) = List.range' (w.toNat + 1) s.handed.length
  arrived : ∀ c ∈ s.handed, ∃ m ∈ D, m.commit = some c
  stored : ∀ i m, s.storedCommitsProposals.lookup i = some m ↔
    m ∈ D ∧ s.lastMlsMsgId < i ∧ ∃ c, m.commit = some c ∧ c.commitId = i
  group : X.applyCommits s.handed g₀ = some s.mls

/-- Nothing that has arrived could be handed next. -/
def Drained (w : UInt32) (D : List Publish) (s : MlsState G) : Prop :=
  ∀ m ∈ D, ∀ c, m.commit = some c → c.commitId.toNat ≠ w.toNat + s.handed.length + 1

section invariant

variable {X} {w : UInt32} {g₀ : G} {U D : List Publish} {s : MlsState G} {msg : Publish}
  {c : MlsPayload}

theorem getElem_commitId {cs : List MlsPayload}
    (hids : cs.map (·.commitId.toNat) = List.range' (w.toNat + 1) cs.length) {i : Nat}
    (hi : i < cs.length) : cs[i].commitId.toNat = w.toNat + 1 + i := by
  have h := congrArg (·[i]?) hids
  simpa [hi] using h

theorem Updates.of_commits (cs : List MlsPayload) (hU : U.map Publish.commit = cs.map some)
    (hids : cs.map (·.commitId.toNat) = List.range' (w.toNat + 1) cs.length)
    (haccept : (X.applyCommits cs g₀).isSome) : Updates X w g₀ U := by
  have hlen : U.length = cs.length := by simpa using congrArg List.length hU
  have hmem {m : Publish} (hm : m ∈ U) :
      ∃ i, ∃ hi : i < cs.length, U[i]? = some m ∧ m.commit = some cs[i] := by
    obtain ⟨i, hi, rfl⟩ := List.getElem_of_mem hm
    refine ⟨i, hlen ▸ hi, List.getElem?_eq_getElem hi, ?_⟩
    have h := congrArg (·[i]?) hU
    simpa [hi, hlen ▸ hi] using h
  constructor
  · intro m hm
    obtain ⟨i, hi, -, hc⟩ := hmem hm
    refine ⟨cs[i], hc, UInt32.lt_iff_toNat_lt.mpr ?_⟩
    rw [getElem_commitId hids hi]
    omega
  · intro m hm m' hm' c c' hc hc' hid
    obtain ⟨i, hi, him, hic⟩ := hmem hm
    obtain ⟨j, hj, hjm, hjc⟩ := hmem hm'
    rw [hic] at hc
    rw [hjc] at hc'
    cases hc
    cases hc'
    have hij := congrArg UInt32.toNat hid
    rw [getElem_commitId hids hi, getElem_commitId hids hj] at hij
    obtain rfl : i = j := by omega
    exact Option.some.inj (him.symm.trans hjm)
  · intro cs' hcs' hids'
    -- the ids say that these are the first commits of the sequence
    have hget (i : Nat) (hi : i < cs'.length) : ∃ hi' : i < cs.length, cs[i] = cs'[i] := by
      obtain ⟨m, hm, hc⟩ := hcs' _ (List.getElem_mem hi)
      obtain ⟨j, hj, -, hjc⟩ := hmem hm
      have heq : cs[j] = cs'[i] := Option.some.inj (hjc.symm.trans hc)
      have hid := getElem_commitId hids hj
      rw [heq, getElem_commitId hids' hi] at hid
      obtain rfl : i = j := by omega
      exact ⟨hj, heq⟩
    have hprefix : cs' <+: cs := by
      refine List.prefix_iff_getElem.mpr ⟨?_, fun i hi => ((hget i hi).2).symm⟩
      by_contra hlt
      exact absurd (hget cs.length (by omega)).1 (by omega)
    obtain ⟨rest, rfl⟩ := hprefix
    exact X.applyCommits_of_append haccept

theorem Delivered.start (hlast : s.lastMlsMsgId = w) (hstored : s.storedCommitsProposals = ∅)
    (hhanded : s.handed = []) : Delivered X w s.mls [] s := by
  refine ⟨by simp [hlast, hhanded], by simp [hhanded], by simp [hhanded], fun i m => ?_, ?_⟩
  · simp [hstored]
  · rw [hhanded]
    rfl

theorem Delivered.of_welcomed (h : Welcomed X w s) : Delivered X w s.mls [] s := by
  obtain ⟨s₀, msg, payload, mls, hl, hst, hh, hp, hm, rfl, hr⟩ := h
  simp only [processWelcomeMessage, read_bind_run, hl, ne_eq, not_true_eq_false, if_false,
    Publish.read, hp, ofMessage, ofExcept_ok_bind_run, hm,
    okOr_some_bind_run, modify_bind_run] at hr
  have hs : s.lastMlsMsgId = mls.commitId ∧ s.storedCommitsProposals = ∅ ∧ s.handed = [] := by
    rw [bind_run] at hr
    simp only [call] at hr
    rcases hc : X.processWelcome mls.mlsContent s₀.mls with ⟨_ | group, g⟩ <;> simp only [hc] at hr
    · cases hr
    · cases hr
      exact ⟨rfl, hst, hh⟩
  exact .start hs.1 hs.2.1 hs.2.2

/-- The next id does not wrap when a greater one is stored under it. -/
theorem toNat_add_one_of_lt {i : UInt32} (h : i < i + 1) : (i + 1).toNat = i.toNat + 1 := by
  have hlt : i.toNat < (i + 1).toNat := h
  rw [UInt32.toNat_add, show (1 : UInt32).toNat = 1 from rfl] at hlt ⊢
  omega

theorem Delivered.drained (h : Delivered X w g₀ D s)
    (hl : s.storedCommitsProposals.lookup (s.lastMlsMsgId + 1) = none) : Drained w D s := by
  intro m hm c hc hid
  have hid' : c.commitId.toNat = s.lastMlsMsgId.toNat + 1 := by rw [hid, h.last]
  have heq : c.commitId = s.lastMlsMsgId + 1 := by
    apply UInt32.toNat_inj.mp
    rw [UInt32.toNat_add, show (1 : UInt32).toNat = 1 from rfl]
    have := UInt32.toNat_lt c.commitId
    omega
  have hlt : s.lastMlsMsgId < c.commitId := by
    show s.lastMlsMsgId.toNat < c.commitId.toNat
    omega
  rw [heq] at hlt
  rw [(h.stored _ m).mpr ⟨hm, hlt, c, hc, heq⟩] at hl
  cases hl

/-- The stored commit that is next is handed to the library, which accepts it. -/
theorem Delivered.next (hU : Updates X w g₀ U) (hD : D ⊆ U) (h : Delivered X w g₀ D s)
    (hl : s.storedCommitsProposals.lookup (s.lastMlsMsgId + 1) = some msg) :
    ∃ c g, msg.commit = some c ∧ X.processCommit c.mlsContent s.mls = (.ok (), g) ∧
      Delivered X w g₀ D (s.took c g) := by
  obtain ⟨hm, hlt, c, hc, hid⟩ := (h.stored _ msg).mp hl
  have hnext := toNat_add_one_of_lt hlt
  have hrun : (s.handed ++ [c]).map (·.commitId.toNat) =
      List.range' (w.toNat + 1) (s.handed ++ [c]).length := by
    have hcid : c.commitId.toNat = w.toNat + 1 + s.handed.length := by
      rw [hid, hnext, h.last]
      omega
    rw [List.map_append, h.run, List.length_append, List.length_singleton, List.range'_1_concat,
      List.map_singleton, hcid]
  have harrived : ∀ c' ∈ s.handed ++ [c], ∃ m ∈ D, m.commit = some c' := by
    intro c' hc'
    rcases List.mem_append.mp hc' with hold | hnew
    · exact h.arrived c' hold
    · rw [List.mem_singleton.mp hnew]
      exact ⟨msg, hm, hc⟩
  obtain ⟨g, hg, happly⟩ := X.processCommit_of_applyCommits h.group
    (hU.accepted _ (fun c' hc' => (harrived c' hc').imp fun m hm => ⟨hD hm.1, hm.2⟩) hrun)
  refine ⟨c, g, hc, hg, ?_, hrun, harrived, fun i m => ?_, happly⟩
  · show (s.lastMlsMsgId + 1).toNat = w.toNat + (s.handed ++ [c]).length
    rw [hnext, h.last, List.length_append, List.length_singleton]
    omega
  · show (s.storedCommitsProposals.erase (s.lastMlsMsgId + 1)).lookup i = some m ↔ _
    by_cases hi : i = s.lastMlsMsgId + 1
    · subst hi
      simp only [AList.lookup_erase, reduceCtorEq, false_iff, not_and]
      exact fun _ hlt => (Nat.lt_irrefl _ hlt).elim
    · rw [AList.lookup_erase_ne hi, h.stored]
      refine and_congr_right fun _ => and_congr_left fun _ => ?_
      -- greater than the old counter, and not the new one
      show s.lastMlsMsgId.toNat < i.toNat ↔ (s.lastMlsMsgId + 1).toNat < i.toNat
      have hne : i.toNat ≠ (s.lastMlsMsgId + 1).toNat := fun e => hi (UInt32.toNat_inj.mp e)
      omega

/-- The loop hands over everything that follows on. -/
theorem Delivered.processAllStored (hU : Updates X w g₀ U) (hD : D ⊆ U) (localName : ProtoName)
    {fuel : Nat} (h : Delivered X w g₀ D s) (hf : s.storedCommitsProposals.keys.length ≤ fuel) :
    ∃ s', MlsState.processAllStored X localName fuel s = (.ok (), s') ∧ Delivered X w g₀ D s' ∧
      Drained w D s' := by
  induction fuel generalizing s with
  | zero => exact ⟨s, rfl, h, h.drained (lookup_next_of_empty hf)⟩
  | succ fuel ih =>
    cases hl : s.storedCommitsProposals.lookup (s.lastMlsMsgId + 1) with
    | none => exact ⟨s, processAllStored_stop _ hl, h, h.drained hl⟩
    | some msg =>
      obtain ⟨c, g, hc, hp, h₁⟩ := h.next hU hD hl
      rw [processAllStored_next fuel hl hc, hp]
      exact ih h₁ (keys_took hl hf g)

theorem Delivered.again (h : Delivered X w g₀ D s) (hm : msg ∈ D) :
    Delivered X w g₀ (D ++ [msg]) s :=
  have hiff : ∀ m, m ∈ D ++ [msg] ↔ m ∈ D := fun m => by
    rw [List.mem_append, List.mem_singleton]
    exact or_iff_left_of_imp fun e => e ▸ hm
  ⟨h.last, h.run, fun c hc => (h.arrived c hc).imp fun m hm => ⟨(hiff m).mpr hm.1, hm.2⟩,
    fun i m => by rw [h.stored, hiff], h.group⟩

theorem Delivered.old (h : Delivered X w g₀ D s) (hc : msg.commit = some c)
    (hle : c.commitId ≤ s.lastMlsMsgId) : Delivered X w g₀ (D ++ [msg]) s := by
  refine ⟨h.last, h.run, fun c hc => (h.arrived c hc).imp fun m hm =>
    ⟨List.mem_append_left _ hm.1, hm.2⟩, fun i m => ?_, h.group⟩
  rw [h.stored]
  refine ⟨fun ⟨hm, hlt, hid⟩ => ⟨List.mem_append_left _ hm, hlt, hid⟩,
    fun ⟨hm, hlt, c', hc', hid⟩ =>
    ⟨?_, hlt, c', hc', hid⟩⟩
  rcases List.mem_append.mp hm with hold | hnew
  · exact hold
  · rw [List.mem_singleton.mp hnew, hc, Option.some.injEq] at hc'
    rw [← hid, ← hc'] at hlt
    exact absurd hlt (Nat.not_lt.mpr hle)

theorem Delivered.store (h : Delivered X w g₀ D s) (hc : msg.commit = some c)
    (hlt : s.lastMlsMsgId < c.commitId) (hnew : s.storedCommitsProposals.lookup c.commitId = none) :
    Delivered X w g₀ (D ++ [msg])
      { s with storedCommitsProposals := s.storedCommitsProposals.insert c.commitId msg } := by
  refine ⟨h.last, h.run, fun c hc => (h.arrived c hc).imp fun m hm =>
    ⟨List.mem_append_left _ hm.1, hm.2⟩, fun i m => ?_, h.group⟩
  by_cases hi : i = c.commitId
  · subst hi
    rw [AList.lookup_insert, Option.some.injEq]
    refine ⟨?_, fun ⟨hm, _, c', hc', hid⟩ => ?_⟩
    · rintro rfl
      exact ⟨List.mem_append_right _ (List.mem_singleton_self _), hlt, c, hc, rfl⟩
    · rcases List.mem_append.mp hm with hold | hm'
      · rw [(h.stored _ m).mpr ⟨hold, hlt, c', hc', hid⟩] at hnew
        cases hnew
      · exact (List.mem_singleton.mp hm').symm
  · rw [AList.lookup_insert_ne hi, h.stored]
    refine ⟨fun ⟨hm, hlt, hid⟩ => ⟨List.mem_append_left _ hm, hlt, hid⟩,
      fun ⟨hm, hlt, c', hc', hid⟩ => ⟨?_, hlt, c', hc', hid⟩⟩
    rcases List.mem_append.mp hm with hold | hm'
    · exact hold
    · rw [List.mem_singleton.mp hm', hc, Option.some.injEq] at hc'
      exact absurd (hid.symm.trans (congrArg MlsPayload.commitId hc'.symm)) hi

theorem Delivered.last_ne_zero (hw : w ≠ 0) (h : Delivered X w g₀ D s) : s.lastMlsMsgId ≠ 0 := by
  intro h0
  have := h.last
  rw [h0] at this
  exact hw (UInt32.toNat_inj.mp (by rw [UInt32.toNat_zero] at *; omega))

/-- A message with a new id is stored, and what follows on is processed. -/
theorem Delivered.fresh (hw : w ≠ 0) (hU : Updates X w g₀ U) (hD : D ++ [msg] ⊆ U)
    (h : Delivered X w g₀ D s) (hc : msg.commit = some c) (hlt : ¬ c.commitId ≤ s.lastMlsMsgId)
    (hl : s.storedCommitsProposals.lookup c.commitId = none) (localName : ProtoName) :
    ∃ s', processControlMessage X msg localName s = (.ok true, s') ∧
      Delivered X w g₀ (D ++ [msg]) s' ∧ Drained w (D ++ [msg]) s' := by
  have hvalid := isValidMsgId_of_commit hc (h.last_ne_zero hw)
  rw [hl, if_neg (by simp [hlt])] at hvalid
  obtain ⟨s', hp, h', hd'⟩ := (h.store hc (Nat.lt_of_not_le hlt) hl).processAllStored hU hD
    localName le_rfl
  refine ⟨s', ?_, h', hd'⟩
  rw [processControlMessage, bind_ok hvalid]
  simp only [Bool.not_true, Bool.false_eq_true, if_false, read_bind_run]
  rw [AList.keys, List.keys, List.length_map] at hp
  rw [bind_ok hp]
  rfl

theorem Delivered.step (hw : w ≠ 0) (hU : Updates X w g₀ U) (hD : D ++ [msg] ⊆ U)
    (h : Delivered X w g₀ D s) (hd : Drained w D s) (localName : ProtoName) :
    Delivered X w g₀ (D ++ [msg]) (processControlMessage X msg localName s).2 ∧
      Drained w (D ++ [msg]) (processControlMessage X msg localName s).2 := by
  obtain ⟨c, hc, -⟩ := hU.commit msg (hD (List.mem_append_right _ (List.mem_singleton_self _)))
  have hvalid := isValidMsgId_of_commit hc (h.last_ne_zero hw)
  by_cases hle : c.commitId ≤ s.lastMlsMsgId
  · rw [if_pos (.inl hle)] at hvalid
    rw [processControlMessage, bind_ok hvalid]
    refine ⟨h.old hc hle, fun m hm c' hc' => ?_⟩
    rcases List.mem_append.mp hm with hold | hnew
    · exact hd m hold c' hc'
    · rw [List.mem_singleton.mp hnew, hc, Option.some.injEq] at hc'
      have hle' : c.commitId.toNat ≤ s.lastMlsMsgId.toNat := hle
      rw [h.last] at hle'
      show c'.commitId.toNat ≠ w.toNat + s.handed.length + 1
      rw [← hc']
      omega
  · cases hl : s.storedCommitsProposals.lookup c.commitId with
    | some m =>
      -- the same id, so the same message
      obtain ⟨hm, _, c', hc', hid⟩ := (h.stored _ m).mp hl
      have heq : m = msg := hU.distinct m (hD (List.mem_append_left _ hm)) msg
        (hD (List.mem_append_right _ (List.mem_singleton_self _))) c' c hc' hc hid
      rw [heq] at hm
      rw [if_pos (.inr (by rw [hl]; rfl))] at hvalid
      rw [processControlMessage, bind_ok hvalid]
      refine ⟨h.again hm, fun m' hm' => ?_⟩
      rcases List.mem_append.mp hm' with hold | hnew
      · exact hd m' hold
      · rw [List.mem_singleton.mp hnew]
        exact hd msg hm
    | none =>
      obtain ⟨s', hp, h'⟩ := h.fresh hw hU hD hc hle hl localName
      rw [hp]
      exact h'

theorem Delivered.accepts (hw : w ≠ 0) (hU : Updates X w g₀ U) (hD : D ++ [msg] ⊆ U)
    (h : Delivered X w g₀ D s) (hnew : msg ∉ D) (localName : ProtoName) :
    ∃ s', processControlMessage X msg localName s = (.ok true, s') ∧
      Delivered X w g₀ (D ++ [msg]) s' ∧ Drained w (D ++ [msg]) s' := by
  have hmsg : msg ∈ U := hD (List.mem_append_right _ (List.mem_singleton_self _))
  obtain ⟨c, hc, hlt⟩ := hU.commit msg hmsg
  have hsame : ∀ m ∈ D, ∀ c', m.commit = some c' → c'.commitId ≠ c.commitId := by
    intro m hm c' hc' hid
    have heq := hU.distinct m (hD (List.mem_append_left _ hm)) msg hmsg c' c hc' hc hid
    exact hnew (heq ▸ hm)
  refine h.fresh hw hU hD hc (fun hle => ?_) ?_ localName
  · -- an id that was handed over belongs to a message that arrived
    have hmem : c.commitId.toNat ∈ s.handed.map (·.commitId.toNat) := by
      have hlt' : w.toNat < c.commitId.toNat := hlt
      have hle' : c.commitId.toNat ≤ s.lastMlsMsgId.toNat := hle
      rw [h.run, List.mem_range'_1]
      have := h.last
      omega
    obtain ⟨c', hc', hid⟩ := List.mem_map.mp hmem
    obtain ⟨m, hm, hmc⟩ := h.arrived c' hc'
    exact hsame m hm c' hmc (UInt32.toNat_inj.mp hid)
  · cases hl : s.storedCommitsProposals.lookup c.commitId with
    | none => rfl
    | some m =>
      obtain ⟨hm, -, c', hc', hid⟩ := (h.stored _ m).mp hl
      exact absurd hid (hsame m hm c' hc')

theorem Delivered.foldl (hw : w ≠ 0) (hU : Updates X w g₀ U) (localName : ProtoName)
    {msgs : List Publish} (hD : D ++ msgs ⊆ U) (h : Delivered X w g₀ D s) (hd : Drained w D s) :
    Delivered X w g₀ (D ++ msgs) (deliver X localName s msgs) ∧
      Drained w (D ++ msgs) (deliver X localName s msgs) := by
  induction msgs generalizing D s with
  | nil =>
    rw [List.append_nil]
    exact ⟨h, hd⟩
  | cons m msgs ih =>
    rw [List.append_cons] at hD ⊢
    obtain ⟨h', hd'⟩ := h.step hw hU (fun _ hm => hD (List.mem_append_left _ hm)) hd localName
    exact ih hD h' hd'

/-- After all of `U`, from the welcome on. -/
theorem Delivered.of_deliver (hw : w ≠ 0) (h : Welcomed X w s) (hU : Updates X w s.mls U)
    (localName : ProtoName) :
    Delivered X w s.mls U (deliver X localName s U) ∧ Drained w U (deliver X localName s U) :=
  (Delivered.of_welcomed h).foldl (D := []) hw hU localName (fun _ hm => hm)
    fun _ hm => absurd hm List.not_mem_nil

theorem Delivered.longestRun (h : Delivered X w g₀ D s) (hd : Drained w D s) :
    LongestRun w.toNat (fun i => ∃ m ∈ D, ∃ c, m.commit = some c ∧ c.commitId.toNat = i)
      (s.handed.map (·.commitId.toNat)) := by
  refine ⟨by rw [List.length_map]; exact h.run, fun i hi => ?_, fun ⟨m, hm, c, hc, hid⟩ => ?_⟩
  · obtain ⟨c, hc, rfl⟩ := List.mem_map.mp hi
    obtain ⟨m, hm, hmc⟩ := h.arrived c hc
    exact ⟨m, hm, c, hmc, rfl⟩
  · rw [List.length_map] at hid
    exact hd m hm c hc hid

end invariant

/-- Two lists of commits of one set of updates with the same ids are the same. -/
theorem Updates.handed_eq {w : UInt32} {g₀ : G} {U : List Publish} (hU : Updates X w g₀ U)
    {cs cs' : List MlsPayload} (h : ∀ c ∈ cs, ∃ m ∈ U, m.commit = some c)
    (h' : ∀ c ∈ cs', ∃ m ∈ U, m.commit = some c)
    (hid : cs.map (·.commitId.toNat) = cs'.map (·.commitId.toNat)) : cs = cs' := by
  induction cs generalizing cs' with
  | nil => exact (List.map_eq_nil_iff.mp hid.symm).symm
  | cons c cs ih =>
    cases cs' with
    | nil => cases hid
    | cons c' cs' =>
      obtain ⟨hhead, htail⟩ := List.cons.inj hid
      obtain ⟨m, hm, hc⟩ := h c List.mem_cons_self
      obtain ⟨m', hm', hc'⟩ := h' c' List.mem_cons_self
      have heq := hU.distinct m hm m' hm' c c' hc hc' (UInt32.toNat_inj.mp hhead)
      rw [heq, hc', Option.some.injEq] at hc
      rw [← hc, ih (fun c hc => h c (List.mem_cons_of_mem _ hc))
        (fun c hc => h' c (List.mem_cons_of_mem _ hc)) htail]

/-- A library that accepts everything; a commit takes a group to the `next` one. -/
def accepting {G : Type} (epoch : G → Option UInt64) (next : G → G) : MlsLib G where
  epoch
  createGroup g := (.ok (), g)
  generateKeyPackage g := (.ok [], g)
  processWelcome _ g := (.ok [], g)
  processCommit _ g := (.ok (), next g)
  processProposal _ _ g := (.ok [], g)
  addMember _ g := (.ok ⟨[], [], []⟩, next g)
  removeMember _ g := (.ok [], next g)
  rejoinMember _ _ g := (.ok ⟨[], [], []⟩, next g)
  keyPackageIdentity _ _ := .ok []
  encryptMessage b _ g := (.ok b, g)
  decryptMessage b g := (.ok (b, [], []), g)
  aad _ := []
  appId _ := 0
  subject _ := ""

/-- The group is its epoch. -/
def epochLib : MlsLib UInt64 := accepting some (· + 1)

theorem epochLib_accepts (cs : List MlsPayload) (g : UInt64) :
    (epochLib.applyCommits cs g).isSome := by
  induction cs generalizing g with
  | nil => rfl
  | cons c cs ih => exact ih (g + 1)

def sampleControl (t : SessionMessageType) (command : CommandPayload) : Publish where
  source := ⟨none, none⟩
  destination := ⟨none, none⟩
  session := ⟨SessionType.Multicast.toWire, t.toWire, 1, 1⟩
  payload := some (.commandPayload (some command))

def sampleWelcome (id : UInt32) : Publish :=
  sampleControl .GroupWelcome (.groupWelcome ⟨[], some ⟨id, []⟩⟩)

def sampleUpdate (id : UInt32) : Publish :=
  sampleControl .GroupUpdate (.groupUpdate ⟨GroupUpdateOp.Add.toInt, none, [], some ⟨id, []⟩⟩)

/-- A participant in epoch 7 after the welcome `w`. -/
def sampleJoined (w : UInt32) : MlsState UInt64 :=
  (processWelcomeMessage epochLib (sampleWelcome w) { mls := 7 }).2

theorem sampleJoined_welcomed (w : UInt32) : Welcomed epochLib w (sampleJoined w) :=
  ⟨{ mls := 7 }, sampleWelcome w, ⟨[], some ⟨w, []⟩⟩, ⟨w, []⟩, rfl, rfl, rfl, rfl, rfl, rfl, rfl⟩

theorem sample_updates {w : UInt32} (ids : List UInt32) (h : ∀ i ∈ ids, w < i) (g : UInt64) :
    Updates epochLib w g (ids.map sampleUpdate) := by
  refine ⟨fun m hm => ?_, fun m hm m' hm' c c' hc hc' he => ?_, fun cs _ _ => epochLib_accepts cs g⟩
  · obtain ⟨i, hi, rfl⟩ := List.mem_map.mp hm
    exact ⟨⟨i, []⟩, rfl, h i hi⟩
  · obtain ⟨i, _, rfl⟩ := List.mem_map.mp hm
    obtain ⟨i', _, rfl⟩ := List.mem_map.mp hm'
    cases hc
    cases hc'
    exact congrArg sampleUpdate he

/-- After a welcome with a commit id other than `0`, the commits handed to the library are the
longest run of ids that have arrived, each once and in order; two participants that joined in the
same epoch and received the same commits, in whatever order and however often, are in the same
epoch. -/
theorem deliver_longestRun {w : UInt32} (hw : w ≠ 0) {s₁ s₂ : MlsState G}
    (h₁ : Welcomed X w s₁) (h₂ : Welcomed X w s₂) (he : X.epoch s₁.mls = X.epoch s₂.mls)
    (localName₁ localName₂ : ProtoName) {msgs₁ msgs₂ : List Publish}
    (hX : X.CommitsAdvance (msgs₁.filterMap Publish.commit))
    (hU₁ : Updates X w s₁.mls msgs₁) (hU₂ : Updates X w s₂.mls msgs₂)
    (hsame : ∀ m, m ∈ msgs₁ ↔ m ∈ msgs₂) :
    LongestRun w.toNat (fun i => ∃ m ∈ msgs₁, ∃ c, m.commit = some c ∧ c.commitId.toNat = i)
      ((deliver X localName₁ s₁ msgs₁).handed.map (·.commitId.toNat)) ∧
    (∀ c ∈ (deliver X localName₁ s₁ msgs₁).handed, ∃ m ∈ msgs₁, m.commit = some c) ∧
    X.epoch (deliver X localName₁ s₁ msgs₁).mls = X.epoch (deliver X localName₂ s₂ msgs₂).mls := by
  obtain ⟨hd₁, hdr₁⟩ := Delivered.of_deliver hw h₁ hU₁ localName₁
  obtain ⟨hd₂, hdr₂⟩ := Delivered.of_deliver hw h₂ hU₂ localName₂
  have hrun₁ := hd₁.longestRun hdr₁
  have hrun₂ := hd₂.longestRun hdr₂
  simp only [← hsame] at hrun₂
  have hhanded : (deliver X localName₁ s₁ msgs₁).handed = (deliver X localName₂ s₂ msgs₂).handed :=
    hU₁.handed_eq X hd₁.arrived
      (fun c hc => (hd₂.arrived c hc).imp fun m hm => ⟨(hsame m).mpr hm.1, hm.2⟩)
      (hrun₁.unique hrun₂)
  refine ⟨hrun₁, hd₁.arrived, ?_⟩
  have hg₂ := hd₂.group
  rw [← hhanded] at hg₂
  exact X.epoch_applyCommits (fun c hc => hX c (List.mem_filterMap.mpr (hd₁.arrived c hc)))
    hd₁.group hg₂ he

/-- Two participants, one of which receives the commits in order and one out of order and twice. -/
theorem deliver_longestRun_reordered :
    (1 : UInt32) ≠ 0 ∧
    LongestRun 1
      (fun i => ∃ m ∈ [2, 3, 5].map sampleUpdate, ∃ c, m.commit = some c ∧ c.commitId.toNat = i)
      ((deliver epochLib ⟨none, none⟩ (sampleJoined 1) ([2, 3, 5].map sampleUpdate)).handed.map
        (·.commitId.toNat)) ∧
    epochLib.epoch
        (deliver epochLib ⟨none, none⟩ (sampleJoined 1) ([2, 3, 5].map sampleUpdate)).mls =
      epochLib.epoch
        (deliver epochLib ⟨none, none⟩ (sampleJoined 1)
          ([5, 3, 5, 2, 3].map sampleUpdate)).mls := by
  have h := deliver_longestRun epochLib (by decide) (sampleJoined_welcomed 1)
    (sampleJoined_welcomed 1) rfl ⟨none, none⟩ ⟨none, none⟩
    (fun _ _ _ _ hc => by cases hc; rfl)
    (sample_updates [2, 3, 5] (by simp) _)
    (sample_updates [5, 3, 5, 2, 3] (by simp) _) (by
      intro m
      simp only [List.map_cons, List.mem_cons]
      tauto)
  exact ⟨by decide, h.1, h.2.2⟩

/-- With the commit id `0` in the welcome the counter still says that there was none, and a commit
that follows is dropped. -/
theorem welcome_zero_drops :
    Welcomed epochLib 0 (sampleJoined 0) ∧ Updates epochLib 0 (sampleJoined 0).mls
      [sampleUpdate 1] ∧
    ¬ LongestRun 0 (fun i => ∃ m ∈ [sampleUpdate 1], ∃ c, m.commit = some c ∧ c.commitId.toNat = i)
      ((deliver epochLib ⟨none, none⟩ (sampleJoined 0) [sampleUpdate 1]).handed.map
        (·.commitId.toNat)) := by
  refine ⟨sampleJoined_welcomed 0, sample_updates [1] (by simp) _, fun h => h.2.2 ?_⟩
  exact ⟨sampleUpdate 1, List.mem_singleton_self _, ⟨1, []⟩, rfl, rfl⟩

/-- What has arrived and cannot be handed over yet is stored under its id, and nothing else is. -/
theorem deliver_stored {w : UInt32} (hw : w ≠ 0) {s : MlsState G} (h : Welcomed X w s)
    (localName : ProtoName) {U : List Publish} (hU : Updates X w s.mls U) (i : UInt32)
    (m : Publish) :
    (deliver X localName s U).storedCommitsProposals.lookup i = some m ↔
      m ∈ U ∧ (deliver X localName s U).lastMlsMsgId < i ∧ ∃ c, m.commit = some c ∧
        c.commitId = i :=
  (Delivered.of_deliver hw h hU localName).1.stored i m

theorem deliver_stored_gap :
    (deliver epochLib ⟨none, none⟩ (sampleJoined 1)
      ([5, 3, 5, 2].map sampleUpdate)).storedCommitsProposals.lookup 5 = some (sampleUpdate 5) :=
  (deliver_stored epochLib (by decide) (sampleJoined_welcomed 1) ⟨none, none⟩
    (sample_updates [5, 3, 5, 2] (by simp) _) 5 _).mpr ⟨by simp, by decide +kernel, _, rfl, rfl⟩

/-! ## Steps that the library rejects -/

section rejected

variable {stored : AList fun _ : UInt32 => Publish} {i : UInt32}

/-- The commits `cs` are stored under the ids from `i` on. -/
def Follows : (AList fun _ : UInt32 => Publish) → UInt32 → List MlsPayload → Prop
  | _, _, [] => True
  | stored, i, c :: cs =>
    (∃ m, stored.lookup i = some m ∧ m.commit = some c) ∧ Follows (stored.erase i) (i + 1) cs

/-- The library accepts the commits that are stored from `i` on, one after the other. -/
def Accepts (stored : AList fun _ : UInt32 => Publish) (i : UInt32) (g : G) : Prop :=
  ∀ cs, Follows stored i cs → (X.applyCommits cs g).isSome

/-- Only commits are stored: `isValidMsgId` stores nothing else. -/
def StoresCommits (s : MlsState G) : Prop :=
  ∀ i m, s.storedCommitsProposals.lookup i = some m → ∃ c, m.commit = some c

section keeps

variable {X}

theorem frame_call {α : Type} (c : MlsCall G α) :
    Frame storedCommitsProposals (call c : M G α) := by
  intro s
  rw [call]
  rcases c s.mls with ⟨_ | _, g⟩ <;> rfl

theorem frame_processStored (msg : Publish) (localName : ProtoName) :
    Frame storedCommitsProposals (processStored X msg localName) := by
  unfold processStored
  split
  · refine .bind (.ofExcept _) fun payload => .bind (.okOr _ _) fun source => ?_
    exact .ite (.pure _) (.bind (frame_call _) fun _ => .pure _)
  · refine .bind (.ofExcept _) fun payload => .bind (.okOr _ _) fun mls => ?_
    exact .bind (.modify fun _ => rfl) fun _ => frame_call _
  · exact .throw _

theorem StoresCommits.erase {s : MlsState G} (h : StoresCommits s) (i : UInt32) : StoresCommits
    { s with storedCommitsProposals := s.storedCommitsProposals.erase i, lastMlsMsgId := i } :=
  fun j m hm => h j m (AList.lookup_erase_iff.mp hm).2

theorem StoresCommits.insert {s : MlsState G} (h : StoresCommits s) {msg : Publish} {c : MlsPayload}
    (hc : msg.commit = some c) (i : UInt32) : StoresCommits
      { s with storedCommitsProposals := s.storedCommitsProposals.insert i msg } := by
  intro j m hm
  rcases AList.lookup_insert_iff.mp hm with ⟨-, rfl⟩ | ⟨-, hm⟩
  · exact ⟨c, hc⟩
  · exact h j m hm

/-- What has a commit id is a commit. -/
theorem commit_of_commitIdOf {msg : Publish} {i : UInt32} (h : commitIdOf msg = .ok i) :
    ∃ c, msg.commit = some c := by
  unfold commitIdOf at h
  cases hc : msg.extractCommandPayload with
  | error e =>
    rw [hc] at h
    cases h
  | ok command =>
    simp only [hc, ofMessage, bind, Except.bind] at h
    split at h
    · rename_i ht
      cases ha : asGroupUpdate command with
      | error e =>
        rw [ha] at h
        cases h
      | ok payload =>
        have he : msg.extract asGroupUpdate = .ok payload := by
          simp only [Publish.extract, hc, bind, Except.bind, ha]
        cases hp : payload.mls with
        | none =>
          simp only [ha, hp] at h
          cases h
        | some c => exact ⟨c, commit_eq_some.mpr ⟨ht, payload, he, hp⟩⟩
    · cases h

theorem keeps_processAllStored (localName : ProtoName) (fuel : Nat) :
    Keeps StoresCommits (processAllStored X localName fuel) := by
  induction fuel with
  | zero => exact .pure ()
  | succ fuel ih =>
    intro s hs
    rw [processAllStored, read_bind_run, id]
    cases hl : s.storedCommitsProposals.lookup (s.lastMlsMsgId + 1) with
    | none => exact hs
    | some m =>
      refine Keeps.bind (.modify fun s hs => hs.erase _) (fun _ => ?_) s hs
      refine .bind ?_ fun _ => ih
      exact (frame_processStored m localName).keeps
        fun stored => ∀ i m, stored.lookup i = some m → ∃ c, m.commit = some c

theorem keeps_isValidMsgId (msg : Publish) : Keeps StoresCommits (isValidMsgId msg : M G Bool) := by
  refine .bind (.read _) fun s => .ite (.pure _) ?_
  cases hi : commitIdOf msg with
  | error e => exact .throw e
  | ok i =>
    obtain ⟨c, hc⟩ := commit_of_commitIdOf hi
    exact .ite (.pure _)
      (.ite (.pure _) (.bind (.modify fun s hs => hs.insert hc _) fun _ => .pure _))

/-- **Whatever the messages, only commits are stored.** -/
theorem keeps_processControlMessage (msg : Publish) (localName : ProtoName) :
    Keeps StoresCommits (processControlMessage X msg localName) := by
  refine .bind (keeps_isValidMsgId msg) fun valid => .ite (.pure _) ?_
  exact .bind (.read _) fun stored => .bind (keeps_processAllStored localName _) fun _ => .pure _

theorem keeps_processWelcomeMessage (msg : Publish) :
    Keeps StoresCommits (processWelcomeMessage X msg) := by
  have hframe : Frame storedCommitsProposals (processWelcomeMessage X msg) := by
    refine .bind (.read _) fun last => .ite (.pure _) ?_
    refine .bind (.ofExcept _) fun payload => .bind (.okOr _ _) fun mls => ?_
    exact .bind (.modify fun _ => rfl) fun _ => .bind (frame_call _) fun _ => .modify fun _ => rfl
  exact hframe.keeps fun stored => ∀ i m, stored.lookup i = some m → ∃ c, m.commit = some c

end keeps

/-- A welcome that the library rejects leaves the counter and the stored commits. -/
def RetriesWelcome (msg : Publish) (s : MlsState G) : Prop :=
  ∀ e s', processWelcomeMessage X msg s = (.err (.MlsOp e), s') →
    s'.lastMlsMsgId = s.lastMlsMsgId ∧ s'.storedCommitsProposals = s.storedCommitsProposals

/-- After a commit that the library rejects, the counter is the id of the last one before it, and
the commits beyond it are stored as they were. -/
def RetriesCommit (msg : Publish) (c : MlsPayload) (localName : ProtoName) (s : MlsState G) :
    Prop :=
  ∀ e s', processControlMessage X msg localName s = (.err (.MlsOp e), s') →
    ∃ applied rejected, s'.handed = s.handed ++ applied ++ [rejected] ∧
      s'.lastMlsMsgId = s.lastMlsMsgId + .ofNat applied.length ∧
      ∀ i, s'.lastMlsMsgId < i →
        s'.storedCommitsProposals.lookup i = (s.storedCommitsProposals.insert c.commitId msg).lookup
          i

variable {X} {s s' : MlsState G} {msg : Publish} {c : MlsPayload} {localName : ProtoName}

/-- With an accepted commit in front, the library accepts what is stored if it accepts the rest. -/
theorem accepts_iff {m : Publish} {g g' : G} (hl : stored.lookup i = some m)
    (hc : m.commit = some c) (hp : X.processCommit c.mlsContent g = (.ok (), g')) :
    Accepts X stored i g ↔ Accepts X (stored.erase i) (i + 1) g' := by
  constructor
  · intro hacc cs hcs
    have := hacc (c :: cs) ⟨⟨m, hl, hc⟩, hcs⟩
    rwa [MlsLib.applyCommits, hp] at this
  · intro hacc cs hcs
    cases cs with
    | nil => rfl
    | cons c' cs =>
      obtain ⟨⟨m', hm', hc'⟩, hcs⟩ := hcs
      rw [hl] at hm'
      cases hm'
      rw [hc] at hc'
      cases hc'
      rw [MlsLib.applyCommits, hp]
      exact hacc cs hcs

theorem accepts_of_lookup_none {g : G} (hl : stored.lookup i = none) : Accepts X stored i g := by
  intro cs hcs
  cases cs with
  | nil => rfl
  | cons c cs =>
    obtain ⟨⟨m, hm, -⟩, -⟩ := hcs
    rw [hl] at hm
    cases hm

/-- The loop ends well if the library accepts what is stored; else it ends at the first commit that
is rejected, with the counter at the id of that one. -/
theorem processAllStored_cases (localName : ProtoName) {fuel : Nat} (hs : StoresCommits s)
    (hf : s.storedCommitsProposals.keys.length ≤ fuel) :
    (∃ s', processAllStored X localName fuel s = (.ok (), s') ∧
      Accepts X s.storedCommitsProposals (s.lastMlsMsgId + 1) s.mls) ∨
    ∃ e s' applied rejected, processAllStored X localName fuel s = (.err (.MlsOp e), s') ∧
      ¬ Accepts X s.storedCommitsProposals (s.lastMlsMsgId + 1) s.mls ∧
      s'.handed = s.handed ++ applied ++ [rejected] ∧
      s'.lastMlsMsgId = s.lastMlsMsgId + .ofNat applied.length + 1 := by
  induction fuel generalizing s with
  | zero => exact .inl ⟨s, rfl, accepts_of_lookup_none (lookup_next_of_empty hf)⟩
  | succ fuel ih =>
    cases hl : s.storedCommitsProposals.lookup (s.lastMlsMsgId + 1) with
    | none => exact .inl ⟨s, processAllStored_stop _ hl, accepts_of_lookup_none hl⟩
    | some m =>
      obtain ⟨c, hc⟩ := hs _ m hl
      rw [processAllStored_next fuel hl hc]
      rcases hp : X.processCommit c.mlsContent s.mls with ⟨e | ⟨⟨⟩⟩, g⟩
      · refine .inr ⟨e, s.took c g, [], c, rfl, fun hacc => ?_, by simp [took], by simp [took]⟩
        have := hacc [c] ⟨⟨m, hl, hc⟩, trivial⟩
        rw [MlsLib.applyCommits, hp] at this
        cases this
      · rw [accepts_iff hl hc hp]
        rcases ih (s := s.took c g) (hs.erase _) (keys_took hl hf g) with
          ⟨s', hrun, hacc⟩ | ⟨e, s', applied, rejected, hrun, hacc, hhanded, hlast⟩
        · exact .inl ⟨s', hrun, hacc⟩
        · refine .inr ⟨e, s', c :: applied, rejected, hrun, hacc, by simp [hhanded, took], ?_⟩
          rw [hlast, List.length_cons, UInt32.ofNat_add, took]
          simp only [UInt32.add_assoc, UInt32.add_comm 1, UInt32.ofNat_one]

/-- **A rejected step cannot be retried.** Of the welcomes and the commits that are given to the
library, those that it rejects move the counter past them; a welcome with the id 0 alone leaves it
where it was. -/
theorem retries_iff (X : MlsLib G) (s : MlsState G) (hs : StoresCommits s) (localName : ProtoName) :
    (∀ msg payload mls, msg.extract asGroupWelcome = .ok payload →
      payload.mls = some mls →
      (RetriesWelcome X msg s ↔ s.lastMlsMsgId ≠ 0 ∨ mls.commitId = 0 ∨
        ∃ group g, X.processWelcome mls.mlsContent s.mls = (.ok group, g))) ∧
    ∀ msg c, msg.commit = some c →
      (RetriesCommit X msg c localName s ↔ s.lastMlsMsgId = 0 ∨ c.commitId ≤ s.lastMlsMsgId ∨
        (s.storedCommitsProposals.lookup c.commitId).isSome ∨
        Accepts X (s.storedCommitsProposals.insert c.commitId msg) (s.lastMlsMsgId + 1) s.mls) := by
  constructor
  · intro msg payload mls hp hm
    by_cases hl : s.lastMlsMsgId = 0
    · have hrun : processWelcomeMessage X msg s =
          (call (X.processWelcome mls.mlsContent) >>= fun group =>
            Prog.modify fun s => { s with group }) { s with lastMlsMsgId := mls.commitId } := by
        simp [processWelcomeMessage, hl, Publish.read, hp, ofMessage, hm]
      unfold RetriesWelcome
      rw [hrun, bind_run, call]
      rcases hw : X.processWelcome mls.mlsContent s.mls with ⟨e | group, g⟩
      · simp [hl]
      · simp
    · refine iff_of_true (fun e s' h => ?_) (.inl hl)
      simp only [processWelcomeMessage, read_bind_run, if_pos hl] at h
      cases h
  · intro msg c hc
    by_cases hl : s.lastMlsMsgId = 0
    · refine iff_of_true (fun e s' h => ?_) (.inl hl)
      have hvalid : isValidMsgId msg s = (.ok false, s) := by
        simp [isValidMsgId, if_pos hl]
      rw [processControlMessage, bind_ok hvalid] at h
      cases h
    · have hvalid := isValidMsgId_of_commit hc hl
      by_cases hdrop : c.commitId ≤ s.lastMlsMsgId ∨
        (s.storedCommitsProposals.lookup c.commitId).isSome
      · rw [if_pos hdrop] at hvalid
        refine iff_of_true (fun e s' h => ?_) (.inr (or_assoc.mp (.inl hdrop)))
        rw [processControlMessage, bind_ok hvalid] at h
        cases h
      · rw [if_neg hdrop] at hvalid
        have hstores := hs.insert hc c.commitId
        have hiff : (s.lastMlsMsgId = 0 ∨ c.commitId ≤ s.lastMlsMsgId ∨
            (s.storedCommitsProposals.lookup c.commitId).isSome ∨
            Accepts X (s.storedCommitsProposals.insert c.commitId msg) (s.lastMlsMsgId + 1) s.mls) ↔
            Accepts X (s.storedCommitsProposals.insert c.commitId msg) (s.lastMlsMsgId + 1)
              s.mls := by
          rw [or_iff_right hl, ← or_assoc, or_iff_right hdrop]
        rw [hiff]
        unfold RetriesCommit
        rw [processControlMessage, bind_ok hvalid]
        simp only [Bool.not_true, Bool.false_eq_true, if_false, read_bind_run]
        rcases processAllStored_cases localName hstores le_rfl with
          ⟨s', hrun, hacc⟩ | ⟨e, s', applied, rejected, hrun, hacc, hhanded, hlast⟩
        all_goals rw [AList.keys, List.keys, List.length_map] at hrun
        · rw [bind_ok hrun]
          exact iff_of_true nofun hacc
        · rw [bind_err hrun]
          refine iff_of_false (fun h => ?_) hacc
          obtain ⟨applied', rejected', hhanded', hlast', -⟩ := h e s' rfl
          have hlen : applied'.length = applied.length := by
            have := congrArg List.length (hhanded'.symm.trans hhanded)
            simpa using this
          rw [hlast, hlen] at hlast'
          simp at hlast'

end rejected

/-- A library that rejects commits without content. -/
def pickyLib : MlsLib UInt64 :=
  { epochLib with
    processCommit := fun content g =>
      if content = [] then (.error .NoGroupUpdatePayload, g) else (.ok (), g + 1) }

theorem storesCommits_sampleJoined (w : UInt32) : StoresCommits (sampleJoined w) :=
  keeps_processWelcomeMessage (X := epochLib) (sampleWelcome w) { mls := 7 } fun _ _ h => by cases h

/-- The commit 2 arrives after the commit 3, which is stored. -/
theorem retries_iff_accepted : RetriesCommit epochLib (sampleUpdate 2) ⟨2, []⟩ ⟨none, none⟩
    (processControlMessage epochLib (sampleUpdate 3) ⟨none, none⟩ (sampleJoined 1)).2 :=
  ((retries_iff epochLib _
    (keeps_processControlMessage (sampleUpdate 3) ⟨none, none⟩ _ (storesCommits_sampleJoined 1))
    ⟨none, none⟩).2 (sampleUpdate 2) ⟨2, []⟩ rfl).mpr
      (.inr (.inr (.inr fun cs _ => epochLib_accepts cs _)))

/-- The commit 2 is rejected; a good one with the same id is dropped from then on. -/
theorem rejected_commit_dropped :
    StoresCommits (sampleJoined 1) ∧
    ¬ RetriesCommit pickyLib (sampleUpdate 2) ⟨2, []⟩ ⟨none, none⟩ (sampleJoined 1) ∧
    (processControlMessage pickyLib (sampleControl .GroupUpdate
        (.groupUpdate ⟨GroupUpdateOp.Add.toInt, none, [], some ⟨2, [1]⟩⟩)) ⟨none, none⟩
      (processControlMessage pickyLib (sampleUpdate 2) ⟨none, none⟩ (sampleJoined 1)).2).1 =
        .ok false := by
  refine ⟨storesCommits_sampleJoined 1, fun h => ?_, rfl⟩
  obtain ⟨applied, rejected, hhanded, hlast, -⟩ := h .NoGroupUpdatePayload _ rfl
  have hlen : applied.length = 0 := by
    have := congrArg List.length hhanded
    simpa using this
  rw [hlen] at hlast
  exact absurd hlast (by decide)

end MlsState

end Slim
