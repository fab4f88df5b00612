import RelayRace.Proofs.Signal.Genealogy

/-!
# A signal reads as raised exactly through its line

A signal holds a copy of the list of its ancestors' flags, taken when it was
derived, and flags are shared by copies.  The genealogy of a family knows of
neither.  `Tells` says how the two hang together: members have one flag exactly
if they share it by descent, the list that a member holds has exactly the flags
of its ancestors, and a flag is up exactly if the latest call on it raised it.
Every operation keeps that, whichever it is, and the reading of a member follows.
-/

namespace RelayRace

/-! ## Flags -/

namespace Flags

variable {flags : Flags} {number : Nat}

theorem isRaised_fresh (hOld : number < flags.cells.length) :
    flags.fresh.2.isRaised number = flags.isRaised number := by
  rw [isRaised, isRaised, fresh, List.getD_eq_getElem?_getD, List.getD_eq_getElem?_getD,
    List.getElem?_append_left hOld]

theorem isRaised_fresh_new : flags.fresh.2.isRaised flags.fresh.1 = false := by
  rw [isRaised, fresh, List.getD_eq_getElem?_getD, List.getElem?_concat_length]
  rfl

theorem isRaised_put (hNumber : number < flags.cells.length) (raised : Bool) (other : Nat) :
    (flags.put number raised).isRaised other =
      if number = other then raised else flags.isRaised other := by
  rw [isRaised, isRaised, put, List.getD_eq_getElem?_getD, List.getD_eq_getElem?_getD,
    List.getElem?_set]
  by_cases hSame : number = other
  · rw [if_pos hSame, if_pos hSame, if_pos (hSame ▸ hNumber)]
    rfl
  · rw [if_neg hSame, if_neg hSame]

end Flags

namespace Signal

theorem mem_reads {signal : Signal} {number : Nat} :
    number ∈ signal.reads ↔ number = signal.flag ∨ number ∈ signal.ancestors :=
  List.mem_cons

theorem isAborted_iff {signal : Signal} {flags : Flags} :
    signal.isAborted flags = true ↔
      flags.isRaised signal.flag = true ∨
        ∃ number ∈ signal.ancestors, flags.isRaised number = true := by
  rw [isAborted, reads, List.any_cons, Bool.or_eq_true, List.any_eq_true]

end Signal

/-! ## What the representation has to do with the genealogy -/

namespace SignalFamily

variable {g : Genealogy} {family : SignalFamily}

/-- How a family stands to its genealogy. -/
structure Tells (g : Genealogy) (family : SignalFamily) : Prop where
  descending : g.Descending
  callers : ∀ call ∈ g.calls, g.Has call.1
  length : family.members.length = g.origins.length
  flag_lt : ∀ signal ∈ family.members, signal.flag < family.flags.cells.length
  /-- Members have one flag exactly if they share it by descent. -/
  flag_eq : ∀ member other signal second, family.members[member]? = some signal →
    family.members[other]? = some second →
      (signal.flag = second.flag ↔ g.SharesFlag member other)
  /-- What a member holds are the flags of its ancestors. -/
  ancestors : ∀ member signal, family.members[member]? = some signal →
    ∀ number, number ∈ signal.ancestors ↔
      ∃ ancestor senior, g.Ancestor member ancestor ∧
        family.members[ancestor]? = some senior ∧ senior.flag = number
  /-- A flag is up exactly if the latest call on it raised it. -/
  raised : ∀ member signal, family.members[member]? = some signal →
    (family.flags.isRaised signal.flag = true ↔ g.Raised member)

namespace Tells

theorem has (hTells : Tells g family) {member : Nat} {signal : Signal}
    (hMember : family.members[member]? = some signal) : g.Has member := by
  have hLt := (List.getElem?_eq_some_iff.mp hMember).1
  rwa [hTells.length] at hLt

theorem exists_member (hTells : Tells g family) {member : Nat} (hHas : g.Has member) :
    ∃ signal, family.members[member]? = some signal := by
  have hLt : member < family.members.length := by
    rw [hTells.length]
    exact hHas
  exact ⟨_, List.getElem?_eq_getElem hLt⟩

/-- A member of a family that was joined is an old one or the new one. -/
theorem old_or_new (hTells : Tells g family) {made : Signal × Flags} {member : Nat}
    {signal : Signal} (hMember : (family.join made).members[member]? = some signal) :
    family.members[member]? = some signal ∨ (member = g.origins.length ∧ signal = made.1) := by
  by_cases hHas : member < family.members.length
  · exact .inl ((List.getElem?_append_left hHas).symm.trans hMember)
  · have hLt := (List.getElem?_eq_some_iff.mp hMember).1
    have hNew : member = family.members.length := by
      rw [join, List.length_append, List.length_singleton] at hLt
      omega
    subst hNew
    have hLast : (family.join made).members[family.members.length]? = some made.1 :=
      List.getElem?_concat_length
    rw [hLast, Option.some.injEq] at hMember
    exact .inr ⟨hTells.length, hMember.symm⟩

theorem joined_old (hTells : Tells g family) (made : Signal × Flags) {member : Nat}
    (hHas : g.Has member) :
    (family.join made).members[member]? = family.members[member]? := by
  have hLt : member < family.members.length := by
    rw [hTells.length]
    exact hHas
  exact List.getElem?_append_left hLt

/-- What an old member holds is told as before. -/
theorem ancestors_born (hTells : Tells g family) (origin : Origin) (made : Signal × Flags)
    {member : Nat} {signal : Signal} (hMember : family.members[member]? = some signal)
    (number : Nat) :
    number ∈ signal.ancestors ↔
      ∃ ancestor senior, (g.born origin).Ancestor member ancestor ∧
        (family.join made).members[ancestor]? = some senior ∧ senior.flag = number := by
  have hHas := hTells.has hMember
  have hDescending := hTells.descending
  rw [hTells.ancestors member signal hMember]
  constructor
  · rintro ⟨ancestor, senior, hAncestor, hSenior, hFlag⟩
    exact ⟨ancestor, senior, (hDescending.ancestor_born hHas).mpr hAncestor,
      (hTells.joined_old made (hTells.has hSenior)).trans hSenior, hFlag⟩
  · rintro ⟨ancestor, senior, hAncestor, hSenior, hFlag⟩
    have hOld := (hDescending.ancestor_born hHas).mp hAncestor
    have hEarly : g.Has ancestor := Nat.lt_trans (hDescending.ancestor_lt hOld) hHas
    exact ⟨ancestor, senior, hOld, (hTells.joined_old made hEarly).symm.trans hSenior, hFlag⟩

/-- An old member's latest call is the same. -/
theorem raised_born (hTells : Tells g family) (origin : Origin) {member : Nat}
    (hHas : g.Has member) : (g.born origin).Raised member ↔ g.Raised member :=
  Genealogy.raisedBy_congr fun call hMem =>
    hTells.descending.sharesFlag_born (hTells.callers call hMem) hHas

theorem has_born {member : Nat} {origin : Origin} (hHas : g.Has member) :
    (g.born origin).Has member := by
  rw [Genealogy.Has, Genealogy.born, List.length_append]
  exact Nat.lt_add_right _ hHas

/-! ### Operations -/

/-- A member that joins is told if what is new about it is: with whom it shares its
flag, what it holds and whether its flag is up. -/
theorem joined (hTells : Tells g family) {origin : Origin} {made : Signal × Flags}
    (hDescending : (g.born origin).Descending)
    (hCells : family.flags.cells.length ≤ made.2.cells.length)
    (hFlag : made.1.flag < made.2.cells.length)
    (hStill : ∀ signal ∈ family.members,
      made.2.isRaised signal.flag = family.flags.isRaised signal.flag)
    (hShares : ∀ member signal, family.members[member]? = some signal →
      (signal.flag = made.1.flag ↔ (g.born origin).SharesFlag member g.origins.length))
    (hHolds : ∀ number, number ∈ made.1.ancestors ↔
      ∃ ancestor senior, (g.born origin).Ancestor g.origins.length ancestor ∧
        (family.join made).members[ancestor]? = some senior ∧ senior.flag = number)
    (hRaised : made.2.isRaised made.1.flag = true ↔ (g.born origin).Raised g.origins.length) :
    Tells (g.born origin) (family.join made) where
  descending := hDescending
  callers := fun call hMem => has_born (hTells.callers call hMem)
  length := by
    rw [join, List.length_append, Genealogy.born, List.length_append, hTells.length]
    rfl
  flag_lt := by
    intro signal hMem
    rcases List.mem_append.mp hMem with hOld | hNew
    · exact Nat.lt_of_lt_of_le (hTells.flag_lt signal hOld) hCells
    · rw [List.mem_singleton.mp hNew]
      exact hFlag
  flag_eq := by
    intro member other signal second hMember hOther
    rcases hTells.old_or_new hMember with hOld | ⟨rfl, rfl⟩
    · rcases hTells.old_or_new hOther with hAlso | ⟨rfl, rfl⟩
      · rw [hTells.flag_eq member other signal second hOld hAlso,
          hTells.descending.sharesFlag_born (hTells.has hOld) (hTells.has hAlso)]
      · exact hShares member signal hOld
    · rcases hTells.old_or_new hOther with hAlso | ⟨rfl, rfl⟩
      · rw [eq_comm]
        exact (hShares other second hAlso).trans
          ⟨Genealogy.SharesFlag.symm, Genealogy.SharesFlag.symm⟩
      · have hNew : (g.born origin).Has g.origins.length :=
          Genealogy.has_of_origin Genealogy.origins_born_new
        exact iff_of_true rfl (hDescending.sharesFlag_self hNew)
  ancestors := by
    intro member signal hMember number
    rcases hTells.old_or_new hMember with hOld | ⟨rfl, rfl⟩
    · exact hTells.ancestors_born origin made hOld number
    · exact hHolds number
  raised := by
    intro member signal hMember
    rcases hTells.old_or_new hMember with hOld | ⟨rfl, rfl⟩
    · show (made.2.isRaised signal.flag = true) ↔ _
      rw [hStill signal (List.mem_of_getElem? hOld), hTells.raised member signal hOld,
        hTells.raised_born origin (hTells.has hOld)]
    · exact hRaised

/-- What a signal that is made anew holds: the flags that its parents read. -/
theorem holds_made (hTells : Tells g family) {parents : List Nat}
    (hParents : ∀ parent ∈ parents, g.Has parent) (made : Signal × Flags) (number : Nat) :
    (∃ parent ∈ parents, ∃ signal, family.members[parent]? = some signal ∧
        number ∈ signal.reads) ↔
      ∃ ancestor senior, (g.born (.made parents)).Ancestor g.origins.length ancestor ∧
        (family.join made).members[ancestor]? = some senior ∧ senior.flag = number := by
  have hLine : ∀ ancestor, (g.born (.made parents)).Ancestor g.origins.length ancestor ↔
      ∃ parent ∈ parents, ancestor = parent ∨ g.Ancestor parent ancestor :=
    fun _ => hTells.descending.ancestor_made hParents
  constructor
  · rintro ⟨parent, hParent, signal, hSignal, hNumber⟩
    rcases Signal.mem_reads.mp hNumber with rfl | hHeld
    · exact ⟨parent, signal, (hLine parent).mpr ⟨parent, hParent, .inl rfl⟩,
        (hTells.joined_old made (hParents parent hParent)).trans hSignal, rfl⟩
    · obtain ⟨ancestor, senior, hAncestor, hSenior, hFlag⟩ :=
        (hTells.ancestors parent signal hSignal number).mp hHeld
      exact ⟨ancestor, senior, (hLine ancestor).mpr ⟨parent, hParent, .inr hAncestor⟩,
        (hTells.joined_old made (hTells.has hSenior)).trans hSenior, hFlag⟩
  · rintro ⟨ancestor, senior, hAncestor, hSenior, hFlag⟩
    obtain ⟨parent, hParent, hFrom⟩ := (hLine ancestor).mp hAncestor
    obtain ⟨signal, hSignal⟩ := hTells.exists_member (hParents parent hParent)
    refine ⟨parent, hParent, signal, hSignal, Signal.mem_reads.mpr ?_⟩
    rcases hFrom with rfl | hFurther
    · rw [hTells.joined_old made (hParents ancestor hParent), hSignal] at hSenior
      cases hSenior
      exact .inl hFlag.symm
    · have hHas : g.Has ancestor :=
        Nat.lt_trans (hTells.descending.ancestor_lt hFurther) (hParents parent hParent)
      rw [hTells.joined_old made hHas] at hSenior
      exact .inr ((hTells.ancestors parent signal hSignal number).mpr
        ⟨ancestor, senior, hFurther, hSenior, hFlag⟩)

/-- A signal that is made anew, with the flags that its parents read. -/
theorem made (hTells : Tells g family) {parents : List Nat} {ancestors : List Nat}
    (hParents : ∀ parent ∈ parents, g.Has parent)
    (hReads : ∀ number, number ∈ ancestors ↔
      ∃ parent ∈ parents, ∃ signal, family.members[parent]? = some signal ∧
        number ∈ signal.reads) :
    Tells (g.born (.made parents))
      (family.join (⟨family.flags.fresh.1, ancestors⟩, family.flags.fresh.2)) := by
  have hCells : family.flags.fresh.2.cells.length = family.flags.cells.length + 1 :=
    List.length_append
  apply hTells.joined
  · refine hTells.descending.born (fun others hEq => ?_) (fun source hEq => ?_)
    · cases hEq
      exact hParents
    · cases hEq
  · show family.flags.cells.length ≤ family.flags.fresh.2.cells.length
    omega
  · show family.flags.cells.length < family.flags.fresh.2.cells.length
    omega
  · intro signal hMem
    exact Flags.isRaised_fresh (hTells.flag_lt signal hMem)
  · intro member signal hMember
    have hLt := hTells.flag_lt signal (List.mem_of_getElem? hMember)
    exact iff_of_false (Nat.ne_of_lt hLt)
      (hTells.descending.not_sharesFlag_made (hTells.has hMember))
  · intro number
    exact (hReads number).trans (hTells.holds_made hParents _ number)
  · -- Nobody shares a new flag, so no call was on it.
    have hNone : ¬(g.born (.made parents)).Raised g.origins.length :=
      Genealogy.not_raisedBy fun call hMem =>
        hTells.descending.not_sharesFlag_made (hTells.callers call hMem)
    show (family.flags.fresh.2.isRaised family.flags.fresh.1 = true) ↔ _
    rw [Flags.isRaised_fresh_new]
    exact iff_of_false Bool.false_ne_true hNone

/-- A copy of a member. -/
theorem shared (hTells : Tells g family) {source : Nat} {signal : Signal}
    (hSource : family.members[source]? = some signal) :
    Tells (g.born (.shared source)) (family.join (signal, family.flags)) := by
  have hHas := hTells.has hSource
  apply hTells.joined
  · refine hTells.descending.born (fun others hEq => ?_) (fun other hEq => ?_)
    · cases hEq
    · cases hEq
      exact hHas
  · exact Nat.le_refl _
  · exact hTells.flag_lt signal (List.mem_of_getElem? hSource)
  · exact fun _ _ => rfl
  · intro member other hMember
    rw [hTells.flag_eq member source other signal hMember hSource,
      hTells.descending.sharesFlag_shared hHas (hTells.has hMember)]
  · intro number
    rw [hTells.ancestors_born (.shared source) (signal, family.flags) hSource number]
    simp only [hTells.descending.ancestor_shared hHas, hTells.descending.ancestor_born hHas]
  · refine (hTells.raised source signal hSource).trans (Genealogy.raisedBy_congr ?_)
    intro call hMem
    exact (hTells.descending.sharesFlag_shared hHas (hTells.callers call hMem)).symm

/-- A call that raises or lowers the flag of a member. -/
theorem called (hTells : Tells g family) {caller : Nat} {signal : Signal}
    (hCaller : family.members[caller]? = some signal) (raises : Bool) :
    Tells (g.called caller raises)
      { family with flags := family.flags.put signal.flag raises } where
  descending := ⟨hTells.descending.parent, hTells.descending.source⟩
  callers := by
    intro call hMem
    rcases List.mem_cons.mp hMem with rfl | hEarlier
    · exact hTells.has hCaller
    · exact hTells.callers call hEarlier
  length := hTells.length
  flag_lt := by
    intro other hMem
    show other.flag < (family.flags.cells.set signal.flag raises).length
    rw [List.length_set]
    exact hTells.flag_lt other hMem
  flag_eq := by
    intro member other first second hMember hOther
    rw [Genealogy.sharesFlag_called]
    exact hTells.flag_eq member other first second hMember hOther
  ancestors := by
    intro member other hMember number
    simp only [Genealogy.ancestor_called]
    exact hTells.ancestors member other hMember number
  raised := by
    intro member other hMember
    have hLt := hTells.flag_lt signal (List.mem_of_getElem? hCaller)
    have hFlag := hTells.flag_eq caller member signal other hCaller hMember
    rw [Genealogy.raised_called, ← hFlag, Flags.isRaised_put hLt]
    by_cases hSame : signal.flag = other.flag
    · rw [if_pos hSame]
      simp [hSame]
    · rw [if_neg hSame, hTells.raised member other hMember]
      simp [hSame]

/-- An operation on a named member is told if it is told of the members there are. -/
theorem named (hTells : Tells g family) {member : Nat} {noted : Genealogy}
    {applied : Signal → SignalFamily}
    (hSome : ∀ signal, family.members[member]? = some signal → Tells noted (applied signal)) :
    Tells (if g.Has member then noted else g)
      (match family.members[member]? with
        | some signal => applied signal
        | none => family) := by
  by_cases hHas : g.Has member
  · obtain ⟨signal, hSignal⟩ := hTells.exists_member hHas
    rw [if_pos hHas, hSignal]
    exact hSome signal hSignal
  · have hNobody : family.members[member]? = none := by
      rw [List.getElem?_eq_none_iff, hTells.length]
      exact Nat.not_lt.mp hHas
    rw [if_neg hHas, hNobody]
    exact hTells

/-- Every operation is told, whatever members it names. -/
theorem step (hTells : Tells g family) (step : SignalStep) :
    Tells (g.note step) (family.apply step) := by
  cases step with
  | create =>
      refine hTells.made (fun _ hMem => absurd hMem List.not_mem_nil) fun number => ?_
      simp
  | child parent =>
      refine hTells.named fun signal hParent => ?_
      refine hTells.made (fun other hMem => ?_) fun number => ?_
      · rw [List.mem_singleton.mp hMem]
        exact hTells.has hParent
      · simp [Signal.mem_reads, hParent, or_comm]
  | link first second =>
      by_cases hBoth : g.Has first ∧ g.Has second
      · obtain ⟨signal, hFirst⟩ := hTells.exists_member hBoth.1
        obtain ⟨other, hSecond⟩ := hTells.exists_member hBoth.2
        simp only [Genealogy.note, apply, hFirst, hSecond, if_pos hBoth]
        refine hTells.made (fun parent hMem => ?_) fun number => ?_
        · rcases List.mem_cons.mp hMem with rfl | hLast
          · exact hBoth.1
          · rw [List.mem_singleton.mp hLast]
            exact hBoth.2
        · simp [Signal.mem_reads, hFirst, hSecond, or_assoc, or_left_comm]
      · have hSame : family.apply (.link first second) = family := by
          simp only [apply]
          split
          · rename_i hFirst hSecond
            exact absurd ⟨hTells.has hFirst, hTells.has hSecond⟩ hBoth
          · rfl
        rw [Genealogy.note, if_neg hBoth, hSame]
        exact hTells
  | share member => exact hTells.named fun _ hMember => hTells.shared hMember
  | abort member => exact hTells.named fun _ hMember => hTells.called hMember true
  | reset member => exact hTells.named fun _ hMember => hTells.called hMember false

end Tells

/-- The family without members. -/
def empty : SignalFamily := ⟨{}, []⟩

theorem tells_empty : Tells .empty empty where
  descending := ⟨fun _ _ hMade => (nomatch hMade), fun _ _ hShared => (nomatch hShared)⟩
  callers := fun _ hMem => absurd hMem List.not_mem_nil
  length := rfl
  flag_lt := fun _ hMem => absurd hMem List.not_mem_nil
  flag_eq := fun _ _ _ _ hMember => nomatch hMember
  ancestors := fun _ _ hMember => nomatch hMember
  raised := fun _ _ hMember => nomatch hMember

/-- So every run of operations is told. -/
theorem tells_run (steps : List SignalStep) :
    ∀ {g : Genealogy} {family : SignalFamily}, Tells g family →
      Tells (g.noteAll steps) (family.run steps) := by
  induction steps with
  | nil => exact id
  | cons step rest ih => exact fun hTells => ih (hTells.step step)

/-! ## Readings -/

/-- How the members of a family read, by their genealogy. -/
structure ReadsThroughLine (g : Genealogy) (family : SignalFamily) : Prop where
  /-- Every member is in the genealogy. -/
  everyone : family.members.length = g.origins.length
  /-- A member reads as raised exactly if the latest call on its own flag raised
  it or that on the flag of an ancestor did. -/
  reading : ∀ member signal, family.members[member]? = some signal →
    (signal.isAborted family.flags = true ↔
      g.Raised member ∨ ∃ ancestor, g.Ancestor member ancestor ∧ g.Raised ancestor)
  /-- A call on a signal changes nothing for those that do not heed it. -/
  unheeded : ∀ member other signal, family.members[member]? = some signal →
    ¬g.Heeds member other → ∀ step, step = SignalStep.abort other ∨ step = .reset other →
      (family.apply step).members[member]? = some signal ∧
        signal.isAborted (family.apply step).flags = signal.isAborted family.flags
  /-- No ancestor heeds its descendants. -/
  ancestor : ∀ member ancestor, g.Ancestor member ancestor → ¬g.Heeds ancestor member
  /-- Siblings that do not share a flag do not heed each other. -/
  sibling : ∀ member other, (∀ parent, g.Parent member parent → g.Parent other parent) →
    ¬g.SharesFlag other member → ¬g.Heeds member other
  /-- While an ancestor reads as raised, lowering a member's own flag does not show. -/
  kept : ∀ member ancestor signal senior, g.Ancestor member ancestor →
    family.members[member]? = some signal → family.members[ancestor]? = some senior →
      senior.isAborted family.flags = true →
        signal.isAborted (family.apply (.reset member)).flags = true

/-- A call on a member leaves the members as they are. -/
theorem members_of_call {step : SignalStep} {other : Nat}
    (hCall : step = .abort other ∨ step = .reset other) :
    (family.apply step).members = family.members := by
  rcases hCall with rfl | rfl
  · simp only [apply]
    split <;> rfl
  · simp only [apply]
    split <;> rfl

/-- A call on a member leaves the kin as they are. -/
theorem ancestor_of_call {step : SignalStep} {other member ancestor : Nat}
    (hCall : step = .abort other ∨ step = .reset other) :
    (g.note step).Ancestor member ancestor ↔ g.Ancestor member ancestor := by
  rcases Genealogy.note_of_call hCall with hSame | ⟨raises, hCalled⟩
  · rw [hSame]
  · rw [hCalled, Genealogy.ancestor_called]

/-- A call is not the latest one on the flags that are not the caller's. -/
theorem raised_of_call {step : SignalStep} {other member : Nat}
    (hCall : step = .abort other ∨ step = .reset other) (hApart : ¬g.SharesFlag other member) :
    (g.note step).Raised member ↔ g.Raised member := by
  rcases Genealogy.note_of_call hCall with hSame | ⟨raises, hCalled⟩
  · rw [hSame]
  · rw [hCalled, Genealogy.raised_called]
    simp [hApart]

namespace Tells

theorem reading (hTells : Tells g family) {member : Nat} {signal : Signal}
    (hMember : family.members[member]? = some signal) :
    signal.isAborted family.flags = true ↔
      g.Raised member ∨ ∃ ancestor, g.Ancestor member ancestor ∧ g.Raised ancestor := by
  rw [Signal.isAborted_iff, hTells.raised member signal hMember]
  refine or_congr_right ?_
  constructor
  · rintro ⟨number, hHeld, hRaised⟩
    obtain ⟨ancestor, senior, hAncestor, hSenior, rfl⟩ :=
      (hTells.ancestors member signal hMember number).mp hHeld
    exact ⟨ancestor, hAncestor, (hTells.raised ancestor senior hSenior).mp hRaised⟩
  · rintro ⟨ancestor, hAncestor, hRaised⟩
    have hHas : g.Has ancestor :=
      Nat.lt_trans (hTells.descending.ancestor_lt hAncestor) (hTells.has hMember)
    obtain ⟨senior, hSenior⟩ := hTells.exists_member hHas
    exact ⟨senior.flag,
      (hTells.ancestors member signal hMember _).mpr ⟨ancestor, senior, hAncestor, hSenior, rfl⟩,
      (hTells.raised ancestor senior hSenior).mpr hRaised⟩

/-- How a member reads after a call on some other. -/
theorem reading_of_call (hTells : Tells g family) {step : SignalStep} {member other : Nat}
    {signal : Signal} (hCall : step = .abort other ∨ step = .reset other)
    (hMember : family.members[member]? = some signal) :
    signal.isAborted (family.apply step).flags = true ↔
      (g.note step).Raised member ∨
        ∃ ancestor, g.Ancestor member ancestor ∧ (g.note step).Raised ancestor := by
  have hStill : (family.apply step).members[member]? = some signal := by
    rw [members_of_call hCall]
    exact hMember
  rw [(hTells.step step).reading hStill]
  simp only [ancestor_of_call hCall]

theorem readsThroughLine (hTells : Tells g family) : ReadsThroughLine g family where
  everyone := hTells.length
  reading := fun _ _ hMember => hTells.reading hMember
  unheeded := by
    intro member other signal hMember hUnheeded step hCall
    rw [Genealogy.Heeds, not_or] at hUnheeded
    obtain ⟨hOwn, hLine⟩ := hUnheeded
    refine ⟨by rw [members_of_call hCall, hMember], ?_⟩
    rw [Bool.eq_iff_iff, hTells.reading_of_call hCall hMember, hTells.reading hMember,
      raised_of_call hCall hOwn]
    refine or_congr_right (exists_congr fun ancestor => and_congr_right fun hAncestor => ?_)
    exact raised_of_call hCall fun hShares => hLine ⟨ancestor, hAncestor, hShares⟩
  ancestor := fun _ _ hAncestor => hTells.descending.not_heeds_ancestor hAncestor
  sibling := fun _ _ hParents hApart => hTells.descending.not_heeds_sibling hParents hApart
  kept := by
    intro member ancestor signal senior hAncestor hMember hSenior hReads
    -- Some line member is raised, and it does not share the flag that is lowered.
    have hRaised : ∃ above, g.Ancestor member above ∧ g.Raised above := by
      rcases (hTells.reading hSenior).mp hReads with hOwn | ⟨above, hAbove, hUp⟩
      · exact ⟨ancestor, hAncestor, hOwn⟩
      · exact ⟨above, hAncestor.trans hAbove, hUp⟩
    obtain ⟨above, hAbove, hUp⟩ := hRaised
    have hApart := hTells.descending.not_sharesFlag_ancestor hAbove
    rw [hTells.reading_of_call (.inr rfl) hMember]
    exact .inr ⟨above, hAbove, (raised_of_call (.inr rfl) hApart).mpr hUp⟩

end Tells

/-- Whatever signals are made, derived from one another and copied, and whichever
of them are raised and lowered in between: at every moment a signal reads as
raised exactly if the latest call on its flag or on that of an ancestor raised
it.  So a call on a derived signal shows at no ancestor, no sibling and no
unrelated signal, and lowering a signal hides no ancestor that is raised. -/
theorem raised_exactly_through_line (steps : List SignalStep) :
    ReadsThroughLine (Genealogy.empty.noteAll steps) (empty.run steps) :=
  (tells_run steps tells_empty).readsThroughLine

/-- A family that begins with one new signal is one of these. -/
example (steps : List SignalStep) : initial.run steps = empty.run (.create :: steps) := rfl

/-- A copy of a signal that is linked to the child of another and to a third one
reads as raised as long as that is. -/
example :
    (initial.run [.child 0, .create, .link 1 2, .share 3, .abort 2, .reset 3]).readings =
      [false, false, true, true, true] := by decide

end SignalFamily

end RelayRace
