import RelayRace.Probe.Attempt

/-!
# Accounts of handles

A list of acts opens and closes handles, and what it does to one handle is told
by two counts: `opens` and `closes`.  Everything that is said here about leaks
and double closes is said in terms of them.

A probe that is at work has closed nothing and holds all that it opened
(`HoldsAll`).  A probe that ended may have closed something, but only what it
opened, and only once (`Settled`).  The acts of one step lead from some holdings
to others (`Moves`) and leave the handles of all other probes alone, which is
what lets the account of one probe survive the steps of the others.
-/

namespace RelayRace

/-! ## Counting -/

/-- How often some acts open a handle. -/
def opens (acts : List Act) (h : Handle) : Nat := acts.count (.opened h)

/-- How often some acts close a handle. -/
def closes (acts : List Act) (h : Handle) : Nat := acts.count (.closed h)

@[simp] theorem opens_nil (h : Handle) : opens [] h = 0 := rfl

@[simp] theorem closes_nil (h : Handle) : closes [] h = 0 := rfl

@[simp] theorem opens_append (acts more : List Act) (h : Handle) :
    opens (acts ++ more) h = opens acts h + opens more h :=
  List.count_append

@[simp] theorem closes_append (acts more : List Act) (h : Handle) :
    closes (acts ++ more) h = closes acts h + closes more h :=
  List.count_append

@[simp] theorem opens_cons (act : Act) (acts : List Act) (h : Handle) :
    opens (act :: acts) h = opens acts h + if act = .opened h then 1 else 0 := by
  simp [opens, List.count_cons]

@[simp] theorem closes_cons (act : Act) (acts : List Act) (h : Handle) :
    closes (act :: acts) h = closes acts h + if act = .closed h then 1 else 0 := by
  simp [closes, List.count_cons]

/-- Acts that open and close nothing. -/
def Quiet (acts : List Act) : Prop := ∀ h, opens acts h = 0 ∧ closes acts h = 0

theorem Quiet.append {acts more : List Act} (hActs : Quiet acts) (hMore : Quiet more) :
    Quiet (acts ++ more) := by
  intro h
  simp [hActs h, hMore h]

/-- Lines in the log open and close nothing. -/
theorem quiet_noted {α : Type} (line : α → Notice) (lines : List α) :
    Quiet (lines.map fun x => .noted (line x)) := by
  intro h
  induction lines with
  | nil => simp
  | cons x rest ih => simpa using ih

/-! ## Holdings -/

namespace Holdings

/-- How many handles of a kind are held. -/
def count (held : Holdings) : HandleKind → Nat
  | .socket => held.socket.toNat
  | .subServer => held.subServer.toNat
  | .connection => held.connection.toNat

@[simp] theorem count_empty (kind : HandleKind) : ({} : Holdings).count kind = 0 := by
  cases kind <;> rfl

theorem count_le (held : Holdings) (kind : HandleKind) : held.count kind ≤ 1 := by
  cases kind <;> exact Bool.toNat_le _

@[simp] theorem opens_closing (held : Holdings) (owner : Nat) (h : Handle) :
    opens (held.closing owner) h = 0 := by
  simp [closing, opens, List.count_eq_zero]

/-- Closing all that is held closes each held handle once, and no other. -/
@[simp] theorem closes_closing (held : Holdings) (owner : Nat) (h : Handle) :
    closes (held.closing owner) h = if h.owner = owner then held.count h.kind else 0 := by
  obtain ⟨socket, subServer, connection⟩ := held
  obtain ⟨kind, other⟩ := h
  cases kind <;> cases socket <;> cases subServer <;> cases connection <;>
    simp [closing, handles, count, eq_comm]

end Holdings

/-! ## The account of one probe -/

/-- The probe `owner` is at work: it holds what it opened and has closed
nothing. -/
def HoldsAll (acts : List Act) (owner : Nat) (held : Holdings) : Prop :=
  ∀ kind, opens acts ⟨kind, owner⟩ = held.count kind ∧ closes acts ⟨kind, owner⟩ = 0

/-- The probe `owner` opened every handle at most once, and what it opened is
either held or was closed once. -/
def Settled (acts : List Act) (owner : Nat) (held : Holdings) : Prop :=
  ∀ kind, opens acts ⟨kind, owner⟩ ≤ 1 ∧
    opens acts ⟨kind, owner⟩ = closes acts ⟨kind, owner⟩ + held.count kind

/-- Acts that lead the probe `owner` from some holdings to others, open nothing
that was held already, and touch no handle of another probe. -/
structure Moves (owner : Nat) (before after : Holdings) (acts : List Act) : Prop where
  balance : ∀ kind, before.count kind + opens acts ⟨kind, owner⟩ =
    closes acts ⟨kind, owner⟩ + after.count kind
  once : ∀ kind, before.count kind + opens acts ⟨kind, owner⟩ ≤ 1
  frame : ∀ h : Handle, h.owner ≠ owner → opens acts h = 0 ∧ closes acts h = 0

/-- Acts of the probe `owner` that close nothing. -/
def KeepsOpen (owner : Nat) (acts : List Act) : Prop :=
  ∀ kind, closes acts ⟨kind, owner⟩ = 0

theorem HoldsAll.settled {acts : List Act} {owner : Nat} {held : Holdings}
    (hHolds : HoldsAll acts owner held) : Settled acts owner held := by
  intro kind
  obtain ⟨hOpens, hCloses⟩ := hHolds kind
  have hCount := held.count_le kind
  omega

/-- A probe at work stays at work as long as it closes nothing. -/
theorem HoldsAll.extend {acts more : List Act} {owner : Nat} {before after : Holdings}
    (hHolds : HoldsAll acts owner before) (hMoves : Moves owner before after more)
    (hKeeps : KeepsOpen owner more) : HoldsAll (acts ++ more) owner after := by
  intro kind
  obtain ⟨hOpens, hCloses⟩ := hHolds kind
  have hBalance := hMoves.balance kind
  have hClosed := hKeeps kind
  simp only [opens_append, closes_append]
  omega

/-- Whatever ends a probe at work leaves its account settled. -/
theorem HoldsAll.finish {acts more : List Act} {owner : Nat} {before after : Holdings}
    (hHolds : HoldsAll acts owner before) (hMoves : Moves owner before after more) :
    Settled (acts ++ more) owner after := by
  intro kind
  obtain ⟨hOpens, hCloses⟩ := hHolds kind
  have hBalance := hMoves.balance kind
  have hOnce := hMoves.once kind
  simp only [opens_append, closes_append]
  omega

/-- Acts that do not touch the handles of a probe. -/
def Spares (acts : List Act) (owner : Nat) : Prop :=
  ∀ kind, opens acts ⟨kind, owner⟩ = 0 ∧ closes acts ⟨kind, owner⟩ = 0

theorem Moves.spares {owner other : Nat} {before after : Holdings} {acts : List Act}
    (hMoves : Moves owner before after acts) (hOther : other ≠ owner) : Spares acts other :=
  fun kind => hMoves.frame ⟨kind, other⟩ hOther

theorem Quiet.spares {acts : List Act} (hQuiet : Quiet acts) (owner : Nat) :
    Spares acts owner :=
  fun kind => hQuiet ⟨kind, owner⟩

theorem HoldsAll.append {acts more : List Act} {owner : Nat} {held : Holdings}
    (hHolds : HoldsAll acts owner held) (hSpares : Spares more owner) :
    HoldsAll (acts ++ more) owner held := by
  intro kind
  simp [hHolds kind, hSpares kind]

theorem Settled.append {acts more : List Act} {owner : Nat} {held : Holdings}
    (hSettled : Settled acts owner held) (hSpares : Spares more owner) :
    Settled (acts ++ more) owner held := by
  intro kind
  simpa [hSpares kind] using hSettled kind

/-- Closing all that a probe holds leads it from its holdings to none. -/
theorem moves_closing (owner : Nat) (held : Holdings) :
    Moves owner held {} (held.closing owner) where
  balance kind := by simp
  once kind := by simpa using held.count_le kind
  frame h hOther := by simp [hOther]

/-! ## Closing what many probes hold -/

section CloseAll

variable {α : Type} (owner : α → Nat) (held : α → Holdings)

/-- The acts that close what each of several probes holds. -/
def closeAll (probes : List α) : List Act := probes.flatMap fun x => (held x).closing (owner x)

theorem opens_closeAll (probes : List α) (h : Handle) :
    opens (closeAll owner held probes) h = 0 := by
  induction probes with
  | nil => rfl
  | cons x rest ih =>
      rw [closeAll, List.flatMap_cons, opens_append, Holdings.opens_closing]
      simpa [closeAll] using ih

theorem spares_closeAll {probes : List α} {other : Nat} (hOther : other ∉ probes.map owner) :
    Spares (closeAll owner held probes) other := by
  intro kind
  refine ⟨opens_closeAll owner held probes _, ?_⟩
  induction probes with
  | nil => rfl
  | cons x rest ih =>
      rw [List.map_cons, List.mem_cons, not_or] at hOther
      rw [closeAll, List.flatMap_cons, closes_append, Holdings.closes_closing,
        if_neg hOther.1, Nat.zero_add]
      exact ih hOther.2

/-- Of probes with different indices, each closes what it holds. -/
theorem closes_closeAll {probes : List α} (hDistinct : (probes.map owner).Nodup) {x : α}
    (hMem : x ∈ probes) (kind : HandleKind) :
    closes (closeAll owner held probes) ⟨kind, owner x⟩ = (held x).count kind := by
  induction probes with
  | nil => cases hMem
  | cons y rest ih =>
      rw [List.map_cons, List.nodup_cons] at hDistinct
      rw [closeAll, List.flatMap_cons, closes_append, Holdings.closes_closing]
      rcases List.mem_cons.mp hMem with rfl | hRest
      · have hSpared := (spares_closeAll owner held hDistinct.1 kind).2
        rw [closeAll] at hSpared
        rw [if_pos rfl, hSpared, Nat.add_zero]
      · have hOther : owner x ≠ owner y := by
          intro hEq
          exact hDistinct.1 (hEq ▸ List.mem_map_of_mem hRest)
        rw [if_neg hOther, Nat.zero_add]
        exact ih hDistinct.2 hRest

/-- Closing what several settled probes hold leaves each of them with nothing. -/
theorem Settled.closeAll {acts : List Act} {probes : List α}
    (hDistinct : (probes.map owner).Nodup) {x : α} (hMem : x ∈ probes)
    (hSettled : Settled acts (owner x) (held x)) :
    Settled (acts ++ RelayRace.closeAll owner held probes) (owner x) {} := by
  intro kind
  obtain ⟨hOnce, hBalance⟩ := hSettled kind
  have hCloses := closes_closeAll owner held hDistinct hMem kind
  have hOpens := opens_closeAll owner held probes ⟨kind, owner x⟩
  simp only [opens_append, closes_append, Holdings.count_empty]
  omega

end CloseAll

/-! ## Acts that leave all handles alone -/

/-- Doing nothing with handles leads from some holdings to the same. -/
theorem moves_quiet (owner : Nat) (held : Holdings) {acts : List Act} (hQuiet : Quiet acts) :
    Moves owner held held acts where
  balance kind := by simp [hQuiet ⟨kind, owner⟩]
  once kind := by simpa [hQuiet ⟨kind, owner⟩] using held.count_le kind
  frame h _ := hQuiet h

theorem Moves.append_quiet {owner : Nat} {before after : Holdings} {acts more : List Act}
    (hMoves : Moves owner before after acts) (hQuiet : Quiet more) :
    Moves owner before after (acts ++ more) where
  balance kind := by simpa [hQuiet ⟨kind, owner⟩] using hMoves.balance kind
  once kind := by simpa [hQuiet ⟨kind, owner⟩] using hMoves.once kind
  frame h hOther := by simp [hMoves.frame h hOther, hQuiet h]

/-- Closing what is left ends a probe with nothing. -/
theorem Moves.append_closing {owner : Nat} {before after : Holdings} {acts : List Act}
    (hMoves : Moves owner before after acts) :
    Moves owner before {} (acts ++ after.closing owner) where
  balance kind := by simpa using hMoves.balance kind
  once kind := by simpa using hMoves.once kind
  frame h hOther := by simp [hMoves.frame h hOther, hOther]

theorem quiet_nil : Quiet [] := fun _ => ⟨rfl, rfl⟩

theorem quiet_asked (owner : Nat) (inquiry : Inquiry) : Quiet [.asked owner inquiry] := by
  intro h
  simp

theorem quiet_guarded (owner : Nat) : Quiet [.guarded owner] := by
  intro h
  simp

theorem quiet_started (owner : Nat) : Quiet [.started owner] := by
  intro h
  simp

theorem Quiet.keepsOpen {acts : List Act} (hQuiet : Quiet acts) (owner : Nat) :
    KeepsOpen owner acts :=
  fun kind => (hQuiet ⟨kind, owner⟩).2

end RelayRace
