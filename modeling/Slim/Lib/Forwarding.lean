import Mathlib.Data.List.Nodup
import Mathlib.Logic.Relation

/-!
# Forwarding along routes

A node forwards a message over each of its links that has a route, except the link it came in over.
`visits` lists the nodes that are visited, once for each visit; nothing bounds it but its fuel.

If the links are those of a tree, each node has a route to its parent and there are routes down to
some nodes, then a message visits no node twice and comes to all of these nodes
(`Oriented.visits_eq`). The induction is on the number of hops that can be left: up to the root and
down again for a message from below, only down for one from the parent.
-/

namespace Forwarding

open Relation

variable {V L : Type*} {hops : Nat} {v : V} {via : Option L} {part : V → Prop}

/-- The visits of a message that is at `v` and came in over `via`. `out` lists the links with a
route and where they lead. `none` says that `fuel` hops did not do. -/
def visits [DecidableEq L] (out : V → List (L × V)) : Nat → V → Option L → Option (List V)
  | 0, _, _ => none
  | fuel + 1, v, via => do
    let rest ← ((out v).filter fun hop => some hop.1 ≠ via).mapM fun hop =>
      visits out fuel hop.2 (some hop.1)
    pure (v :: rest.flatten)

/-- What a list of hops visits, if each visits its own part of the nodes and all of `wanted`
there. -/
theorem mapM_visits {hops : List (L × V)} (f : L × V → Option (List V)) (part : L × V → V → Prop)
    (wanted : V → Prop) (hnodup : hops.Nodup)
    (hf : ∀ hop ∈ hops, ∃ l, f hop = some l ∧ l.Nodup ∧ (∀ x ∈ l, part hop x) ∧
      ∀ x, wanted x → part hop x → x ∈ l)
    (hpart : ∀ hop ∈ hops, ∀ hop' ∈ hops, ∀ x, part hop x → part hop' x → hop = hop') :
    ∃ ls, hops.mapM f = some ls ∧ ls.flatten.Nodup ∧ (∀ x ∈ ls.flatten, ∃ hop ∈ hops, part hop x) ∧
      ∀ hop ∈ hops, ∀ x, wanted x → part hop x → x ∈ ls.flatten := by
  induction hops with
  | nil => exact ⟨[], rfl, by simp, by simp, by simp⟩
  | cons hop hops ih =>
    obtain ⟨hnot, hrest⟩ := List.nodup_cons.mp hnodup
    obtain ⟨l, hl, hlnodup, hlpart, hlwanted⟩ := hf hop List.mem_cons_self
    obtain ⟨ls, hls, hlsnodup, hlspart, hlswanted⟩ := ih hrest
      (fun h hh => hf h (List.mem_cons_of_mem hop hh))
      (fun h hh h' hh' => hpart h (List.mem_cons_of_mem hop hh) h' (List.mem_cons_of_mem hop hh'))
    refine ⟨l :: ls, by simp [hl, hls], ?_, ?_, ?_⟩
    · refine List.nodup_append.mpr ⟨hlnodup, hlsnodup, ?_⟩
      rintro x hx y hy rfl
      obtain ⟨hop', hhop', hx'⟩ := hlspart x hy
      have heq :=
        hpart hop List.mem_cons_self hop' (List.mem_cons_of_mem hop hhop') x (hlpart x hx) hx'
      exact hnot (heq ▸ hhop')
    · intro x hx
      rcases List.mem_append.mp (List.flatten_cons ▸ hx) with hx | hx
      · exact ⟨hop, List.mem_cons_self, hlpart x hx⟩
      · obtain ⟨hop', hhop', hx'⟩ := hlspart x hx
        exact ⟨hop', List.mem_cons_of_mem hop hhop', hx'⟩
    · intro hop' hhop' x hx hx'
      rw [List.flatten_cons, List.mem_append]
      rcases List.mem_cons.mp hhop' with rfl | hhop'
      · exact .inl (hlwanted x hx hx')
      · exact .inr (hlswanted hop' hhop' x hx hx')

/-! ## Trees -/

section Tree

variable (parent : V → Option V)

/-- `x` is `v` or below it. -/
def Below : V → V → Prop := ReflTransGen fun x y => parent x = some y

variable {parent} {x v c c' p : V}

theorem Below.of_child (h : Below parent x c) (hc : parent c = some v) : Below parent x v :=
  h.tail hc

theorem Below.child (h : Below parent x v) (hne : x ≠ v) :
    ∃ c, parent c = some v ∧ Below parent x c := by
  rcases ReflTransGen.cases_tail h with heq | ⟨c, hc, hcv⟩
  · exact absurd heq.symm hne
  · exact ⟨c, hcv, hc⟩

theorem Below.total (h : Below parent x c) (h' : Below parent x c') :
    Below parent c c' ∨ Below parent c' c := by
  refine ReflTransGen.total_of_right_unique ?_ h h'
  intro a b b' hb hb'
  rw [hb] at hb'
  exact Option.some.inj hb'

variable {rank : V → Nat} (hrank : ∀ c p, parent c = some p → rank p < rank c)

include hrank in
theorem Below.rank_le (h : Below parent x v) : rank v ≤ rank x := by
  induction h with
  | refl => exact Nat.le_refl _
  | tail _ hstep ih => exact Nat.le_trans (Nat.le_of_lt (hrank _ _ hstep)) ih

include hrank in
theorem not_below_child (hc : parent c = some v) : ¬ Below parent v c := by
  intro h
  have hle := h.rank_le hrank
  have hlt := hrank c v hc
  omega

include hrank in
theorem siblings_eq (hc : parent c = some v) (hc' : parent c' = some v) (h : Below parent x c)
    (h' : Below parent x c') : c = c' := by
  -- one of them is above the other, hence above their parent
  have habove : ∀ {a b : V}, parent a = some v → parent b = some v → Below parent a b → a = b := by
    intro a b ha hb hab
    rcases ReflTransGen.cases_head hab with heq | ⟨w, hw, hwb⟩
    · exact heq
    · rw [ha] at hw
      obtain rfl := Option.some.inj hw
      exact absurd hwb (not_below_child hrank hb)
  rcases h.total h' with hcc | hcc
  · exact habove hc hc' hcc
  · exact (habove hc' hc hcc).symm

end Tree

/-! ## Routes on a tree -/

/-- The routes over the links of a tree, on the nodes `S`: a node has a route to its parent, and one
to a child if there is a node below it that is wanted. `up v` is the link from `v` to its parent. -/
structure Oriented (out : V → List (L × V)) (parent : V → Option V) (up : V → L) (rank : V → Nat)
    (height : Nat) (S wanted : V → Prop) : Prop where
  rank_lt : ∀ c p, parent c = some p → rank p < rank c
  rank_le : ∀ v, rank v ≤ height
  up_inj : ∀ c c', (parent c).isSome → (parent c').isSome → up c = up c' → c = c'
  nodup : ∀ v, (out v).Nodup
  hop : ∀ v link w, (link, w) ∈ out v →
    parent v = some w ∧ link = up v ∨ parent w = some v ∧ link = up w
  upward : ∀ v p, S v → parent v = some p → (up v, p) ∈ out v
  downward : ∀ x c v, wanted x → Below parent x c → parent c = some v → (up c, c) ∈ out v
  closed : ∀ v, S v → ∀ hop ∈ out v, S hop.2
  top : ∀ v, S v → parent v = none → ∀ x, wanted x → Below parent x v

variable {out : V → List (L × V)} {parent : V → Option V} {up : V → L} {rank : V → Nat}
  {height : Nat} {S wanted : V → Prop}

/-- Where a message that is at `v` came from, what it can still visit, and in how many hops. -/
inductive From (parent : V → Option V) (up : V → L) (rank : V → Nat) (height : Nat) (v : V) :
    Option L → (V → Prop) → Nat → Prop
  | start : From parent up rank height v none (fun _ => True) (height + 1 + rank v)
  | parent {p : V} : parent v = some p →
      From parent up rank height v (some (up v)) (fun x => Below parent x v) (height - rank v)
  | child {c : V} : parent c = some v →
      From parent up rank height v (some (up c)) (fun x => ¬ Below parent x c) (height + 1 + rank v)

/-- `x` is behind a hop from `v` to `w`. -/
def Beyond (parent : V → Option V) (v w x : V) : Prop :=
  parent w = some v ∧ Below parent x w ∨ parent v = some w ∧ ¬ Below parent x v

section
variable (h : Oriented out parent up rank height S wanted)
include h

section
variable (hfrom : From parent up rank height v via part hops)
include hfrom

theorem From.self
    : part v := by
  cases hfrom with
  | start => trivial
  | parent => exact ReflTransGen.refl
  | child hc => exact not_below_child h.rank_lt hc

/-- A hop that does not go back leaves what is behind it to be visited, in fewer hops. -/
theorem From.hop
    {link : L} {w : V}
    (hhop : (link, w) ∈ out v) (hvia : some link ≠ via) :
    ∃ part' hops', From parent up rank height w (some link) part' hops' ∧ hops' < hops ∧
      ∀ x, part' x ↔ Beyond parent v w x := by
  rcases h.hop v _ _ hhop with ⟨hp, rfl⟩ | ⟨hc, rfl⟩
  · have hlt := h.rank_lt v w hp
    refine ⟨_, _, From.child hp, ?_, fun x => ⟨fun hx => .inr ⟨hp, hx⟩, ?_⟩⟩
    · cases hfrom with
      | start => omega
      | parent => exact absurd rfl hvia
      | child => omega
    · rintro (⟨hc, -⟩ | ⟨-, hx⟩)
      · have hlt' := h.rank_lt w v hc
        omega
      · exact hx
  · have hlt := h.rank_lt w v hc
    have hle := h.rank_le w
    refine ⟨_, _, From.parent hc, ?_, fun x => ⟨fun hx => .inl ⟨hc, hx⟩, ?_⟩⟩
    · cases hfrom <;> omega
    · rintro (⟨-, hx⟩ | ⟨hp, -⟩)
      · exact hx
      · have hlt' := h.rank_lt v w hp
        omega

/-- What is behind such a hop could be visited before, and `v` is not behind it. -/
theorem From.of_beyond
    {link : L} {w : V}
    (hhop : (link, w) ∈ out v) (hvia : some link ≠ via) {x : V} (hx : Beyond parent v w x) :
    part x ∧ x ≠ v := by
  rcases hx with ⟨hc, hx⟩ | ⟨hp, hx⟩
  · refine ⟨?_, fun hxv => not_below_child h.rank_lt hc (hxv ▸ hx)⟩
    cases hfrom with
    | start => trivial
    | parent => exact hx.of_child hc
    | child hc' =>
      intro hbelow
      obtain rfl := siblings_eq h.rank_lt hc hc' hx hbelow
      rcases h.hop v _ _ hhop with ⟨hp, -⟩ | ⟨-, rfl⟩
      · have hlt := h.rank_lt w v hc
        have hlt' := h.rank_lt v w hp
        omega
      · exact hvia rfl
  · refine ⟨?_, fun hxv => hx (hxv ▸ ReflTransGen.refl)⟩
    cases hfrom with
    | start => trivial
    | parent =>
      rcases h.hop v _ _ hhop with ⟨-, rfl⟩ | ⟨hc, -⟩
      · exact absurd rfl hvia
      · have hlt := h.rank_lt v w hp
        have hlt' := h.rank_lt w v hc
        omega
    | child hc => exact fun hbelow => hx (hbelow.of_child hc)

end

theorem Oriented.beyond_unique {link link' : L}
    {w w' : V} (hhop : (link, w) ∈ out v) (hhop' : (link', w') ∈ out v) {x : V}
    (hx : Beyond parent v w x) (hx' : Beyond parent v w' x) : (link, w) = (link', w') := by
  -- the end of the hop decides, and it names the link
  have hend : w = w' := by
    rcases hx with ⟨hc, hx⟩ | ⟨hp, hx⟩ <;> rcases hx' with ⟨hc', hx'⟩ | ⟨hp', hx'⟩
    · exact siblings_eq h.rank_lt hc hc' hx hx'
    · exact absurd (hx.of_child hc) hx'
    · exact absurd (hx'.of_child hc') hx
    · exact Option.some.inj (hp.symm.trans hp')
  subst hend
  rcases h.hop v _ _ hhop with ⟨hp, rfl⟩ | ⟨hc, rfl⟩ <;>
    rcases h.hop v _ _ hhop' with ⟨hp', rfl⟩ | ⟨hc', rfl⟩
  · rfl
  · exact absurd (h.rank_lt v w hp) (Nat.lt_asymm (h.rank_lt w v hc'))
  · exact absurd (h.rank_lt v w hp') (Nat.lt_asymm (h.rank_lt w v hc))
  · rfl

/-- What is wanted and can still be visited is at `v` or behind a hop. -/
theorem From.covers (hv : S v)
    (hfrom : From parent up rank height v via part hops) {x : V} (hx : wanted x) (hpart : part x)
    (hne : x ≠ v) : ∃ link w, (link, w) ∈ out v ∧ some link ≠ via ∧ Beyond parent v w x := by
  by_cases hbelow : Below parent x v
  · obtain ⟨c, hc, hxc⟩ := hbelow.child hne
    refine ⟨up c, c, h.downward x c v hx hxc hc, ?_, .inl ⟨hc, hxc⟩⟩
    have hcsome : (parent c).isSome := by simp [hc]
    have hlt := h.rank_lt c v hc
    intro heq
    cases hfrom with
    | start => simp at heq
    | parent hp =>
      have hcv : c = v := h.up_inj c v hcsome (by simp [hp]) (Option.some.inj heq)
      subst hcv
      omega
    | @child c' hc' =>
      have hcc : c = c' := h.up_inj c c' hcsome (by simp [hc']) (Option.some.inj heq)
      exact hpart (hcc ▸ hxc)
  · cases hparent : parent v with
    | none => exact absurd (h.top v hv hparent x hx) hbelow
    | some p =>
      refine ⟨up v, p, h.upward v p hv hparent, ?_, .inr ⟨hparent, hbelow⟩⟩
      intro heq
      cases hfrom with
      | start => simp at heq
      | parent => exact hbelow hpart
      | @child c hc =>
        have hcv : v = c := h.up_inj v c (by simp [hparent]) (by simp [hc]) (Option.some.inj heq)
        subst hcv
        exact absurd (h.rank_lt v v hc) (Nat.lt_irrefl _)

end

variable [DecidableEq L]

/-- A message that is at `v` visits, of the nodes that it can still visit, each at most once and all
that are wanted. -/
theorem From.visits_eq (h : Oriented out parent up rank height S wanted) {fuel : Nat} (hv : S v)
    (hfrom : From parent up rank height v via part hops) (hfuel : hops < fuel) :
    ∃ l, visits out fuel v via = some l ∧ l.Nodup ∧ (∀ x ∈ l, part x) ∧
      ∀ x, wanted x → part x → x ∈ l := by
  induction fuel generalizing v via part hops with
  | zero => omega
  | succ fuel ih =>
    have hmem : ∀ hop, hop ∈ ((out v).filter fun hop => some hop.1 ≠ via) ↔
        hop ∈ out v ∧ some hop.1 ≠ via := by simp
    -- each hop visits what is behind it
    have hbehind : ∀ hop ∈ (out v).filter fun hop => some hop.1 ≠ via,
        ∃ l, visits out fuel hop.2 (some hop.1) = some l ∧ l.Nodup ∧
          (∀ x ∈ l, Beyond parent v hop.2 x) ∧ ∀ x, wanted x → Beyond parent v hop.2 x → x ∈ l := by
      intro hop hhop
      obtain ⟨hout, hvia⟩ := (hmem hop).mp hhop
      obtain ⟨part', hops', hfrom', hlt, hiff⟩ := hfrom.hop h hout hvia
      obtain ⟨l, hl, hlnodup, hlpart, hlwanted⟩ := ih (h.closed v hv hop hout) hfrom' (by omega)
      exact ⟨l, hl, hlnodup, fun x hx => (hiff x).mp (hlpart x hx),
        fun x hx hbeyond => hlwanted x hx ((hiff x).mpr hbeyond)⟩
    obtain ⟨ls, hls, hnodup, hpart, hwanted⟩ :=
      mapM_visits (fun hop => visits out fuel hop.2 (some hop.1)) (fun hop => Beyond parent v hop.2)
        wanted ((h.nodup v).filter fun hop => some hop.1 ≠ via) hbehind
        fun hop hhop hop' hhop' x hx hx' =>
          h.beyond_unique ((hmem hop).mp hhop).1 ((hmem hop').mp hhop').1 hx hx'
    refine ⟨v :: ls.flatten, ?_, ?_, ?_, ?_⟩
    · rw [visits, hls]
      rfl
    · refine List.nodup_cons.mpr ⟨fun hvl => ?_, hnodup⟩
      obtain ⟨hop, hhop, hbeyond⟩ := hpart v hvl
      obtain ⟨hout, hvia⟩ := (hmem hop).mp hhop
      exact (hfrom.of_beyond h hout hvia hbeyond).2 rfl
    · intro x hx
      rcases List.mem_cons.mp hx with rfl | hx
      · exact hfrom.self h
      · obtain ⟨hop, hhop, hbeyond⟩ := hpart x hx
        obtain ⟨hout, hvia⟩ := (hmem hop).mp hhop
        exact (hfrom.of_beyond h hout hvia hbeyond).1
    · intro x hx hxpart
      by_cases hne : x = v
      · exact hne ▸ List.mem_cons_self
      · obtain ⟨link, w, hhop, hvia, hbeyond⟩ := hfrom.covers h hv hx hxpart hne
        exact List.mem_cons_of_mem v (hwanted (link, w) ((hmem _).mpr ⟨hhop, hvia⟩) x hx hbeyond)

omit [DecidableEq L] in
theorem mapM_congr_some {α β : Type*} {f g : α → Option β} {l : List α} {r : List β}
    (h : l.mapM f = some r) (hfg : ∀ a ∈ l, ∀ b, f a = some b → g a = some b) :
    l.mapM g = some r := by
  induction l generalizing r with
  | nil => simpa using h
  | cons a l ih =>
    simp only [List.mapM_cons, bind, Option.bind_eq_some_iff, pure, Option.some.injEq] at h
    obtain ⟨b, hb, bs, hbs, rfl⟩ := h
    have hrest := ih hbs fun x hx => hfg x (List.mem_cons_of_mem a hx)
    simp [hfg a List.mem_cons_self b hb, hrest]

theorem visits_mono {fuel fuel' : Nat} (hle : fuel ≤ fuel') {l : List V}
    (h : visits out fuel v via = some l) : visits out fuel' v via = some l := by
  induction fuel generalizing fuel' v via l with
  | zero => simp [visits] at h
  | succ fuel ih =>
    obtain ⟨fuel', rfl⟩ : ∃ n, fuel' = n + 1 := ⟨fuel' - 1, by omega⟩
    simp only [visits, bind, Option.bind_eq_some_iff, pure, Option.some.injEq] at h ⊢
    obtain ⟨ls, hls, rfl⟩ := h
    exact ⟨ls, mapM_congr_some hls fun hop _ l hl => ih (by omega) hl, rfl⟩

/-- A message that starts at `v` visits each node at most once and all that are wanted. -/
theorem Oriented.visits_eq (h : Oriented out parent up rank height S wanted) (hv : S v) :
    ∃ fuel l, (∀ fuel', fuel ≤ fuel' → visits out fuel' v none = some l) ∧ l.Nodup ∧
      ∀ x, wanted x → x ∈ l := by
  have hstart : From parent up rank height v none (fun _ => True) (height + 1 + rank v) := .start
  obtain ⟨l, hl, hnodup, -, hwanted⟩ := hstart.visits_eq h hv (Nat.lt_succ_self _)
  exact ⟨_, l, fun fuel' hle => visits_mono hle hl, hnodup, fun x hx => hwanted x hx trivial⟩

end Forwarding
