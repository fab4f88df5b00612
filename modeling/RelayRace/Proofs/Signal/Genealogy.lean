import Mathlib.Logic.Relation
import RelayRace.Signal

/-!
# The genealogy of a family of signals

What was done to a family of signals can be told without any flag: how each
member came about, and on which members the calls were made that raise or lower
a flag.  A genealogy keeps just that.  From it follow

* who shares a flag: the members that go back, by copying, to one and the same
  signal (`SharesFlag`);
* who is an ancestor of whom: the parents named when a signal was made, their
  parents, and so on (`Ancestor`);
* whether the latest call on a member's own flag was one that raises it
  (`Raised`).

Nothing here knows how a signal is represented, so these notions can stand beside
the reading of a signal as an account of what it should be.

A member is made of members that are there already.  Lines of descent therefore
lead to smaller and smaller numbers, which is the measure of all inductions below.
-/

namespace RelayRace

/-- How a member of a family came about. -/
inductive Origin where
  /-- A signal of its own, derived from these parents; a new one has none. -/
  | made (parents : List Nat)
  /-- A copy of another member. -/
  | shared (source : Nat)
  deriving DecidableEq, Repr

/-- What was done to a family. -/
structure Genealogy where
  /-- How the members came about, in the order of their names. -/
  origins : List Origin
  /-- The members that were raised (`true`) or lowered, the latest call first. -/
  calls : List (Nat × Bool) := []
  deriving DecidableEq, Repr

namespace Genealogy

/-- The genealogy of a family without members. -/
def empty : Genealogy := ⟨[], []⟩

/-- Whether a member has this name. -/
def Has (g : Genealogy) (member : Nat) : Prop := member < g.origins.length

instance (g : Genealogy) (member : Nat) : Decidable (g.Has member) :=
  inferInstanceAs (Decidable (member < g.origins.length))

/-- Adds a member. -/
def born (g : Genealogy) (origin : Origin) : Genealogy :=
  { g with origins := g.origins ++ [origin] }

/-- Adds a call on a member. -/
def called (g : Genealogy) (member : Nat) (raises : Bool) : Genealogy :=
  { g with calls := (member, raises) :: g.calls }

/-- Takes down one operation.  A name that no member has is ignored. -/
def note (g : Genealogy) : SignalStep → Genealogy
  | .create => g.born (.made [])
  | .child parent => if g.Has parent then g.born (.made [parent]) else g
  | .link first second =>
      if g.Has first ∧ g.Has second then g.born (.made [first, second]) else g
  | .share member => if g.Has member then g.born (.shared member) else g
  | .abort member => if g.Has member then g.called member true else g
  | .reset member => if g.Has member then g.called member false else g

/-- The genealogy after a sequence of operations. -/
def noteAll (g : Genealogy) (steps : List SignalStep) : Genealogy := steps.foldl note g

/-! ## Kinship -/

/-- A member goes back, by copying, to the signal that was made as `founder` with
these parents. -/
inductive Stems (g : Genealogy) : Nat → Nat → List Nat → Prop where
  | made {founder : Nat} {parents : List Nat}
      (hMade : g.origins[founder]? = some (.made parents)) : Stems g founder founder parents
  | shared {member source founder : Nat} {parents : List Nat}
      (hShared : g.origins[member]? = some (.shared source))
      (hSource : Stems g source founder parents) : Stems g member founder parents

/-- Two members go back to one and the same signal. -/
def SharesFlag (g : Genealogy) (member other : Nat) : Prop :=
  ∃ founder parents, g.Stems member founder parents ∧ g.Stems other founder parents

/-- A parent of the signal that a member goes back to. -/
def Parent (g : Genealogy) (member parent : Nat) : Prop :=
  ∃ founder parents, g.Stems member founder parents ∧ parent ∈ parents

/-- The parents, their parents, and so on. -/
def Ancestor (g : Genealogy) : Nat → Nat → Prop := Relation.TransGen g.Parent

/-- Whether the latest of some calls, the latest first, on a member or on one that
shares its flag was one that raises. -/
def RaisedBy (g : Genealogy) (member : Nat) : List (Nat × Bool) → Prop
  | [] => False
  | (caller, raises) :: earlier =>
      (g.SharesFlag caller member ∧ raises = true) ∨
        (¬g.SharesFlag caller member ∧ RaisedBy g member earlier)

/-- Whether the latest call on a member's flag was one that raises it. -/
def Raised (g : Genealogy) (member : Nat) : Prop := g.RaisedBy member g.calls

/-- Whether a call on `other` can show at `member`: they share a flag, or `other`
shares one with an ancestor. -/
def Heeds (g : Genealogy) (member other : Nat) : Prop :=
  g.SharesFlag other member ∨ ∃ ancestor, g.Ancestor member ancestor ∧ g.SharesFlag other ancestor

/-! ## Founders -/

variable {g : Genealogy} {member other founder : Nat} {parents : List Nat}

theorem Stems.unique (hStems : g.Stems member founder parents) :
    ∀ {also : Nat} {alike : List Nat}, g.Stems member also alike →
      founder = also ∧ parents = alike := by
  induction hStems with
  | made hMade =>
      intro also alike hAlso
      cases hAlso with
      | made hAgain =>
          rw [hMade] at hAgain
          cases hAgain
          exact ⟨rfl, rfl⟩
      | shared hShared _ =>
          rw [hMade] at hShared
          cases hShared
  | shared hShared _ ih =>
      intro also alike hAlso
      cases hAlso with
      | made hMade =>
          rw [hShared] at hMade
          cases hMade
      | shared hAgain hSource =>
          rw [hShared] at hAgain
          cases hAgain
          exact ih hSource

theorem Stems.founded (hStems : g.Stems member founder parents) :
    g.origins[founder]? = some (.made parents) := by
  induction hStems with
  | made hMade => exact hMade
  | shared _ _ ih => exact ih

theorem SharesFlag.symm (hShares : g.SharesFlag member other) : g.SharesFlag other member := by
  obtain ⟨founder, parents, hMember, hOther⟩ := hShares
  exact ⟨founder, parents, hOther, hMember⟩

/-! ## Lines of descent -/

/-- Every member is made of members with smaller names. -/
structure Descending (g : Genealogy) : Prop where
  parent : ∀ member parents, g.origins[member]? = some (Origin.made parents) →
    ∀ parent ∈ parents, parent < member
  source : ∀ member source, g.origins[member]? = some (Origin.shared source) → source < member

namespace Descending

theorem founder_le (hDescending : g.Descending) (hStems : g.Stems member founder parents) :
    founder ≤ member := by
  induction hStems with
  | made _ => exact Nat.le_refl _
  | shared hShared _ ih =>
      have hSource := hDescending.source _ _ hShared
      omega

theorem exists_stems (hDescending : g.Descending) :
    ∀ member, g.Has member → ∃ founder parents, g.Stems member founder parents := by
  intro member
  induction member using Nat.strongRecOn with
  | ind member ih =>
      intro hHas
      have hOrigin : g.origins[member]? = some g.origins[member] := List.getElem?_eq_getElem hHas
      cases hMember : g.origins[member] with
      | made parents => exact ⟨member, parents, .made (hMember ▸ hOrigin)⟩
      | shared source =>
          rw [hMember] at hOrigin
          have hSource := hDescending.source _ _ hOrigin
          obtain ⟨founder, parents, hStems⟩ := ih source hSource (Nat.lt_trans hSource hHas)
          exact ⟨founder, parents, .shared hOrigin hStems⟩

theorem sharesFlag_self (hDescending : g.Descending) (hHas : g.Has member) :
    g.SharesFlag member member := by
  obtain ⟨founder, parents, hStems⟩ := hDescending.exists_stems member hHas
  exact ⟨founder, parents, hStems, hStems⟩

/-- The founders of an ancestor are older than those of a descendant. -/
theorem founder_lt (hDescending : g.Descending) {ancestor : Nat}
    (hAncestor : g.Ancestor member ancestor) :
    ∀ {early : Nat} {alike : List Nat}, g.Stems member founder parents →
      g.Stems ancestor early alike → early < founder := by
  induction hAncestor with
  | single hParent =>
      intro early alike hStems hEarly
      obtain ⟨also, alike, hAlso, hMem⟩ := hParent
      obtain ⟨rfl, rfl⟩ := hStems.unique hAlso
      have hLe := hDescending.founder_le hEarly
      have hLt := hDescending.parent _ _ hStems.founded _ hMem
      omega
  | tail _ hParent ih =>
      intro early alike hStems hEarly
      obtain ⟨middle, others, hMiddle, hMem⟩ := hParent
      have hBefore := ih hStems hMiddle
      have hLe := hDescending.founder_le hEarly
      have hLt := hDescending.parent _ _ hMiddle.founded _ hMem
      omega

/-- No line of descent leads back to the flag that it starts from. -/
theorem not_sharesFlag_ancestor (hDescending : g.Descending) {ancestor : Nat}
    (hAncestor : g.Ancestor member ancestor) : ¬g.SharesFlag member ancestor := by
  rintro ⟨founder, parents, hMember, hShared⟩
  exact Nat.lt_irrefl _ (hDescending.founder_lt hAncestor hMember hShared)

theorem ancestor_lt (hDescending : g.Descending) {ancestor : Nat}
    (hAncestor : g.Ancestor member ancestor) : ancestor < member := by
  induction hAncestor with
  | single hParent =>
      obtain ⟨founder, parents, hStems, hMem⟩ := hParent
      have hLe := hDescending.founder_le hStems
      have hLt := hDescending.parent _ _ hStems.founded _ hMem
      omega
  | tail _ hParent ih =>
      obtain ⟨founder, parents, hStems, hMem⟩ := hParent
      have hLe := hDescending.founder_le hStems
      have hLt := hDescending.parent _ _ hStems.founded _ hMem
      omega

/-- Members with the same parents that do not share a flag do not heed each
other. -/
theorem not_heeds_sibling (hDescending : g.Descending)
    (hParents : ∀ parent, g.Parent member parent → g.Parent other parent)
    (hApart : ¬g.SharesFlag other member) : ¬g.Heeds member other := by
  rintro (hShares | ⟨ancestor, hAncestor, hShares⟩)
  · exact hApart hShares
  · have hOthers : g.Ancestor other ancestor := by
      obtain ⟨parent, hParent, hLine⟩ := Relation.TransGen.head'_iff.mp hAncestor
      exact Relation.TransGen.head'_iff.mpr ⟨parent, hParents parent hParent, hLine⟩
    exact hDescending.not_sharesFlag_ancestor hOthers hShares

/-- An ancestor does not heed its descendants. -/
theorem not_heeds_ancestor (hDescending : g.Descending) {ancestor : Nat}
    (hAncestor : g.Ancestor member ancestor) : ¬g.Heeds ancestor member := by
  rintro (hShares | ⟨senior, hSenior, hShares⟩)
  · exact hDescending.not_sharesFlag_ancestor hAncestor hShares
  · exact hDescending.not_sharesFlag_ancestor (hAncestor.trans hSenior) hShares

end Descending

/-! ## A new member -/

section Born

variable {origin : Origin}

theorem origins_born_of_has (hHas : g.Has member) :
    (g.born origin).origins[member]? = g.origins[member]? :=
  List.getElem?_append_left hHas

theorem origins_born_new : (g.born origin).origins[g.origins.length]? = some origin :=
  List.getElem?_concat_length

theorem has_of_origin {origin : Origin} (hOrigin : g.origins[member]? = some origin) :
    g.Has member :=
  (List.getElem?_eq_some_iff.mp hOrigin).1

theorem Stems.has (hStems : g.Stems member founder parents) : g.Has member := by
  cases hStems with
  | made hMade => exact has_of_origin hMade
  | shared hShared _ => exact has_of_origin hShared

/-- Nothing changes for those who are there already. -/
theorem Stems.born (hStems : g.Stems member founder parents) :
    (g.born origin).Stems member founder parents := by
  induction hStems with
  | made hMade =>
      exact .made ((origins_born_of_has (has_of_origin hMade)).trans hMade)
  | shared hShared _ ih =>
      exact .shared ((origins_born_of_has (has_of_origin hShared)).trans hShared) ih

theorem Descending.stems_born (hDescending : g.Descending) (hHas : g.Has member) :
    (g.born origin).Stems member founder parents ↔ g.Stems member founder parents := by
  constructor
  · intro hStems
    obtain ⟨also, alike, hOld⟩ := hDescending.exists_stems member hHas
    obtain ⟨rfl, rfl⟩ := hStems.unique hOld.born
    exact hOld
  · exact Stems.born

theorem Descending.sharesFlag_born (hDescending : g.Descending) (hMember : g.Has member)
    (hOther : g.Has other) :
    (g.born origin).SharesFlag member other ↔ g.SharesFlag member other := by
  simp only [SharesFlag, hDescending.stems_born hMember, hDescending.stems_born hOther]

theorem Descending.parent_born (hDescending : g.Descending) (hMember : g.Has member)
    {parent : Nat} : (g.born origin).Parent member parent ↔ g.Parent member parent := by
  simp only [Parent, hDescending.stems_born hMember]

theorem Descending.ancestor_born (hDescending : g.Descending) (hMember : g.Has member)
    {ancestor : Nat} :
    (g.born origin).Ancestor member ancestor ↔ g.Ancestor member ancestor := by
  constructor
  · intro hAncestor
    induction hAncestor with
    | single hParent => exact .single ((hDescending.parent_born hMember).mp hParent)
    | tail _ hParent ih =>
        have hMiddle := Nat.lt_trans (hDescending.ancestor_lt ih) hMember
        exact ih.tail ((hDescending.parent_born hMiddle).mp hParent)
  · intro hAncestor
    have hStays : ∀ child parent, g.Parent child parent → (g.born origin).Parent child parent := by
      rintro child parent ⟨founder, parents, hStems, hMem⟩
      exact ⟨founder, parents, hStems.born, hMem⟩
    exact Relation.TransGen.mono hStays _ _ hAncestor

/-- A member that is made of members that are there. -/
theorem Descending.born (hDescending : g.Descending)
    (hParents : ∀ parents, origin = .made parents → ∀ parent ∈ parents, g.Has parent)
    (hSource : ∀ source, origin = .shared source → g.Has source) :
    (g.born origin).Descending := by
  have hOrigin : ∀ {member : Nat} {found : Origin},
      (g.born origin).origins[member]? = some found →
        g.origins[member]? = some found ∨ (member = g.origins.length ∧ origin = found) := by
    intro member found hFound
    by_cases hHas : g.Has member
    · exact .inl ((origins_born_of_has hHas).symm.trans hFound)
    · have hNew : member = g.origins.length := by
        have hLt : member < (g.born origin).origins.length := has_of_origin hFound
        rw [Genealogy.born, List.length_append, List.length_singleton] at hLt
        rw [Has] at hHas
        omega
      subst hNew
      rw [origins_born_new, Option.some.injEq] at hFound
      exact .inr ⟨rfl, hFound⟩
  constructor
  · intro member parents hMade
    rcases hOrigin hMade with hOld | ⟨rfl, hNew⟩
    · exact hDescending.parent member parents hOld
    · exact hParents parents hNew
  · intro member source hShared
    rcases hOrigin hShared with hOld | ⟨rfl, hNew⟩
    · exact hDescending.source member source hOld
    · exact hSource source hNew

theorem ancestor_iff {ancestor : Nat} :
    g.Ancestor member ancestor ↔
      ∃ parent, g.Parent member parent ∧ (ancestor = parent ∨ g.Ancestor parent ancestor) := by
  rw [Ancestor, Relation.TransGen.head'_iff]
  simp only [Relation.reflTransGen_iff_eq_or_transGen]

/-- A signal that is made anew descends from its parents. -/
theorem Descending.ancestor_made (hDescending : g.Descending)
    (hParents : ∀ parent ∈ parents, g.Has parent) {ancestor : Nat} :
    (g.born (.made parents)).Ancestor g.origins.length ancestor ↔
      ∃ parent ∈ parents, ancestor = parent ∨ g.Ancestor parent ancestor := by
  have hParent : ∀ parent, (g.born (.made parents)).Parent g.origins.length parent ↔
      parent ∈ parents := by
    intro parent
    have hMade : (g.born (.made parents)).Stems g.origins.length g.origins.length parents :=
      .made origins_born_new
    constructor
    · rintro ⟨founder, others, hStems, hMem⟩
      obtain ⟨-, rfl⟩ := hMade.unique hStems
      exact hMem
    · intro hMem
      exact ⟨g.origins.length, parents, hMade, hMem⟩
  rw [ancestor_iff]
  constructor
  · rintro ⟨parent, hOf, hLine⟩
    have hMem := (hParent parent).mp hOf
    exact ⟨parent, hMem, hLine.imp_right (hDescending.ancestor_born (hParents parent hMem)).mp⟩
  · rintro ⟨parent, hMem, hLine⟩
    exact ⟨parent, (hParent parent).mpr hMem,
      hLine.imp_right (hDescending.ancestor_born (hParents parent hMem)).mpr⟩

/-- A signal that is made anew has a flag of its own. -/
theorem Descending.not_sharesFlag_made (hDescending : g.Descending) (hHas : g.Has member) :
    ¬(g.born (.made parents)).SharesFlag member g.origins.length := by
  rintro ⟨founder, others, hMember, hNew⟩
  have hMade : (g.born (.made parents)).Stems g.origins.length g.origins.length parents :=
    .made origins_born_new
  obtain ⟨rfl, rfl⟩ := hMade.unique hNew
  have hLe := hDescending.founder_le ((hDescending.stems_born hHas).mp hMember)
  rw [Has] at hHas
  omega

/-- A copy goes back to what its source goes back to. -/
theorem Descending.stems_shared (hDescending : g.Descending) {source : Nat}
    (hSource : g.Has source) :
    (g.born (.shared source)).Stems g.origins.length founder parents ↔
      g.Stems source founder parents := by
  have hOld : (g.born (.shared source)).Stems source founder parents ↔
      g.Stems source founder parents := hDescending.stems_born hSource
  rw [← hOld]
  constructor
  · intro hStems
    cases hStems with
    | made hMade =>
        rw [origins_born_new] at hMade
        cases hMade
    | shared hShared hOf =>
        rw [origins_born_new] at hShared
        cases hShared
        exact hOf
  · exact .shared origins_born_new

theorem Descending.sharesFlag_shared (hDescending : g.Descending) {source : Nat}
    (hSource : g.Has source) (hHas : g.Has member) :
    (g.born (.shared source)).SharesFlag member g.origins.length ↔
      g.SharesFlag member source := by
  simp only [SharesFlag, hDescending.stems_born hHas, hDescending.stems_shared hSource]

theorem Descending.ancestor_shared (hDescending : g.Descending) {source : Nat}
    (hSource : g.Has source) {ancestor : Nat} :
    (g.born (.shared source)).Ancestor g.origins.length ancestor ↔
      g.Ancestor source ancestor := by
  have hOld : (g.born (.shared source)).Ancestor source ancestor ↔ g.Ancestor source ancestor :=
    hDescending.ancestor_born hSource
  rw [← hOld, ancestor_iff, ancestor_iff]
  simp only [Parent, hDescending.stems_born hSource, hDescending.stems_shared hSource]

end Born

/-! ## Calls -/

/-- Whether the latest call raises depends only on which calls are on the flag. -/
theorem raisedBy_congr {h : Genealogy} {calls : List (Nat × Bool)}
    (hSame : ∀ call ∈ calls, g.SharesFlag call.1 member ↔ h.SharesFlag call.1 other) :
    g.RaisedBy member calls ↔ h.RaisedBy other calls := by
  induction calls with
  | nil => exact Iff.rfl
  | cons call earlier ih =>
      have hCall := hSame call List.mem_cons_self
      have hEarlier := ih fun call hMem => hSame call (List.mem_cons_of_mem _ hMem)
      show (g.SharesFlag call.1 member ∧ call.2 = true ∨
          ¬g.SharesFlag call.1 member ∧ g.RaisedBy member earlier) ↔
        (h.SharesFlag call.1 other ∧ call.2 = true ∨
          ¬h.SharesFlag call.1 other ∧ h.RaisedBy other earlier)
      rw [hCall, hEarlier]

theorem not_raisedBy {calls : List (Nat × Bool)}
    (hNone : ∀ call ∈ calls, ¬g.SharesFlag call.1 member) : ¬g.RaisedBy member calls := by
  induction calls with
  | nil => exact id
  | cons call earlier ih =>
      rintro (⟨hShares, -⟩ | ⟨-, hEarlier⟩)
      · exact hNone call List.mem_cons_self hShares
      · exact ih (fun call hMem => hNone call (List.mem_cons_of_mem _ hMem)) hEarlier

section Called

variable {caller : Nat} {raises : Bool}

/-- A call changes nobody's kin. -/
theorem stems_called :
    (g.called caller raises).Stems member founder parents ↔ g.Stems member founder parents := by
  constructor
  · intro hStems
    induction hStems with
    | made hMade => exact .made hMade
    | shared hShared _ ih => exact .shared hShared ih
  · intro hStems
    induction hStems with
    | made hMade => exact .made hMade
    | shared hShared _ ih => exact .shared hShared ih

theorem sharesFlag_called :
    (g.called caller raises).SharesFlag member other ↔ g.SharesFlag member other := by
  simp only [SharesFlag, stems_called]

theorem ancestor_called {ancestor : Nat} :
    (g.called caller raises).Ancestor member ancestor ↔ g.Ancestor member ancestor := by
  have hParent : (g.called caller raises).Parent = g.Parent := by
    funext child parent
    simp only [Parent, stems_called]
  rw [Ancestor, Ancestor, hParent]

/-- A call decides for all who share the flag, and for nobody else. -/
theorem raised_called :
    (g.called caller raises).Raised member ↔
      (g.SharesFlag caller member ∧ raises = true) ∨
        (¬g.SharesFlag caller member ∧ g.Raised member) := by
  have hEarlier : (g.called caller raises).RaisedBy member g.calls ↔ g.Raised member :=
    raisedBy_congr fun _ _ => sharesFlag_called
  show ((g.called caller raises).SharesFlag caller member ∧ raises = true ∨
      ¬(g.called caller raises).SharesFlag caller member ∧
        (g.called caller raises).RaisedBy member g.calls) ↔ _
  rw [sharesFlag_called, hEarlier]

/-- A call on a name is taken down as such, or ignored. -/
theorem note_of_call {step : SignalStep} (hCall : step = .abort caller ∨ step = .reset caller) :
    g.note step = g ∨ ∃ raises, g.note step = g.called caller raises := by
  by_cases hHas : g.Has caller
  · rcases hCall with rfl | rfl
    · exact .inr ⟨true, if_pos hHas⟩
    · exact .inr ⟨false, if_pos hHas⟩
  · rcases hCall with rfl | rfl
    · exact .inl (if_neg hHas)
    · exact .inl (if_neg hHas)

end Called

end Genealogy

end RelayRace
