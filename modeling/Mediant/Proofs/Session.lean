import Mediant.Proofs.Faults
import Mediant.Session.Run

/-!
# What commands change

The data of a session are its settings and registers; the marks that it gives out only tell
not-a-numbers apart.  `Turn.Leaves` says that a turn leaves a part of the state as it is, whether it
fails or not.  Evaluating operands leaves the data, and so does every command that neither
configures nor keeps a result.  Keeping a result cannot fail and is the last thing that is done, so
a command that keeps one leaves the data if it fails (`data_after_of_error`).

Settings are changed by configuring and by nothing else.  A session that is not configured answers
every command with the settings that it has at first (`settings_advance`), and commands that fail
leave the data as if they had not been given (`data_advance`).  A configuration that fails has made
the changes before the one that failed (`exists_configured`).
-/

namespace Mediant

variable {α β γ : Type}

/-- Settings and registers. -/
def Session.data (s : Session) : Settings × Registers := (s.settings, s.registers)

/-! ## Turns that leave a part of the state -/

namespace Turn

/-- The turn leaves a part of the state as it is. -/
def Leaves (part : Session → γ) (x : Turn α) : Prop := ∀ s, part (x.run.run s).2 = part s

/-- The turn does so if it fails. -/
def LeavesOnFault (part : Session → γ) (x : Turn α) : Prop :=
  ∀ s fault, (x.run.run s).1 = .error fault → part (x.run.run s).2 = part s

variable {part : Session → γ} {x : Turn α} {f : α → Turn β} {s s' : Session}

/-- The second of two turns happens after the first, if that does not fail. -/
lemma run_bind_of_ok {a : α} (h : x.run.run s = (.ok a, s')) :
    (x >>= f).run.run s = (f a).run.run s' := by
  simp only [ExceptT.run_bind, StateT.run_bind, h]
  rfl

lemma run_bind_of_error {fault : Fault} (h : x.run.run s = (.error fault, s')) :
    (x >>= f).run.run s = (.error fault, s') := by
  simp only [ExceptT.run_bind, StateT.run_bind, h]
  rfl

lemma Leaves.leavesOnFault (h : Leaves part x) : LeavesOnFault part x := fun s _ _ => h s

lemma Leaves.bind (hx : Leaves part x) (hf : ∀ a, Leaves part (f a)) : Leaves part (x >>= f) := by
  intro s
  have hleft := hx s
  rcases hrun : x.run.run s with ⟨_ | a, s'⟩
  · rw [run_bind_of_error hrun, ← hleft, hrun]
  · rw [run_bind_of_ok hrun, hf a s', ← hleft, hrun]

lemma Leaves.leavesOnFault_bind (hx : Leaves part x) (hf : ∀ a, LeavesOnFault part (f a)) :
    LeavesOnFault part (x >>= f) := by
  intro s fault hfault
  have hleft := hx s
  rcases hrun : x.run.run s with ⟨_ | a, s'⟩
  · rw [run_bind_of_error hrun, ← hleft, hrun]
  · rw [run_bind_of_ok hrun] at hfault ⊢
    rw [hf a s' fault hfault, ← hleft, hrun]

lemma Leaves.settings (h : Leaves Session.data x) : Leaves Session.settings x :=
  fun s => congrArg Prod.fst (h s)

lemma Leaves.registers (h : Leaves Session.data x) : Leaves Session.registers x :=
  fun s => congrArg Prod.snd (h s)

lemma leaves_pure (a : α) : Leaves part (pure a : Turn α) := fun _ => rfl

lemma leaves_throw (fault : Fault) : Leaves part (throw fault : Turn α) := fun _ => rfl

lemma leaves_get : Leaves part (get : Turn Session) := fun _ => rfl

lemma leaves_lift (x : Except Fault α) : Leaves part (liftM x : Turn α) := fun _ => rfl

lemma leaves_mapM {g : α → Turn β} {l : List α} (h : ∀ a ∈ l, Leaves part (g a)) :
    Leaves part (l.mapM g) := by
  induction l with
  | nil => exact leaves_pure []
  | cons a l ih =>
    rw [List.forall_mem_cons] at h
    rw [List.mapM_cons]
    exact h.1.bind fun _ => (ih h.2).bind fun _ => leaves_pure _

lemma leaves_foldlM {g : β → α → Turn β} (h : ∀ b a, Leaves part (g b a)) (l : List α) (b : β) :
    Leaves part (l.foldlM g b) := by
  induction l generalizing b with
  | nil => exact leaves_pure b
  | cons a l ih =>
    rw [List.foldlM_cons]
    exact (h b a).bind fun b' => ih b'

end Turn

open Turn

/-! ## Evaluation -/

namespace Session

lemma leaves_mark (v : Value) : Leaves data (mark v) := by
  unfold mark
  split
  · exact fun _ => rfl
  · exact fun _ => rfl
  · exact leaves_pure _

lemma leaves_settings_keep (name : String) (v : Value) : Leaves settings (keep name v) :=
  fun _ => rfl

lemma leaves_registers_change (setting : Setting) (v : Value) :
    Leaves registers (change setting v) :=
  fun _ => rfl

end Session

open Session

namespace Operand

mutual

/-- Evaluating an operand leaves the data. -/
lemma leaves_eval (x : Operand) : Leaves data x.eval := by
  cases x with
  | value v => exact (leaves_lift _).bind fun _ => leaves_mark _
  | tuple items => exact (leaves_evalAll items).bind fun _ => leaves_pure _
  | list items => exact (leaves_evalAll items).bind fun _ => leaves_pure _
  | fraction fields => exact (leaves_evalAll fields).bind fun _ => leaves_lift _
  | entry type x =>
    exact (leaves_eval x).bind fun _ => (leaves_lift _).bind fun _ => leaves_mark _
  | array type shape entries view =>
    exact (leaves_evalAll entries).bind fun _ =>
      (leaves_mapM fun _ _ => leaves_lift _).bind fun _ => leaves_pure _
  | register name => exact leaves_get.bind fun _ => leaves_lift _

lemma leaves_evalAll (items : List Operand) : Leaves data (evalAll items) := by
  cases items with
  | nil => exact leaves_pure []
  | cons x rest =>
    exact (leaves_eval x).bind fun _ => (leaves_evalAll rest).bind fun _ => leaves_pure _

end

lemma leaves_evalOr (default : Value) (x : Option Operand) : Leaves data (evalOr default x) := by
  cases x with
  | none => exact leaves_pure _
  | some x => exact leaves_eval x

lemma leaves_key (x : Operand) : Leaves data x.key :=
  leaves_get.bind fun _ => (leaves_eval x).bind fun _ => (leaves_lift _).bind fun _ _ => rfl

end Operand

open Operand

lemma Bounds.leaves_arguments (b : Bounds) (v : Value) : Leaves data (b.arguments v) :=
  (leaves_evalOr _ _).bind fun _ => (leaves_evalOr _ _).bind fun _ =>
    (leaves_evalOr _ _).bind fun _ => leaves_pure _

lemma ResultParts.leaves_build (p : ResultParts) : Leaves data p.build := by
  refine (leaves_eval _).bind fun v => (leaves_eval _).bind fun w => ?_
  split
  · exact leaves_pure _
  · exact leaves_throw _

/-! ## Commands -/

/-- The command changes settings. -/
def Command.Configures : Command → Prop
  | .configure _ => True
  | _ => False

/-- The command keeps a result in a register if it succeeds. -/
def Command.Keeps : Command → Prop
  | .search _ _ _ keepAs => keepAs.isSome = true
  | .apply .. => True
  | _ => False

namespace Session

lemma leaves_keepDistinct (kept : Value.Kept) (x : Operand) : Leaves data (keepDistinct kept x) :=
  (leaves_eval x).bind fun _ => leaves_lift _

/-- All other commands leave the data. -/
lemma leaves_answer {c : Command} (hc : ¬c.Configures) (hk : ¬c.Keeps) :
    Leaves data (answer c) := by
  cases c with
  | search v b strict keepAs =>
    cases keepAs with
    | none =>
      exact (leaves_eval v).bind fun _ => (b.leaves_arguments _).bind fun _ =>
        leaves_get.bind fun _ => (leaves_lift _).bind fun _ => leaves_pure _
    | some name => exact absurd rfl hk
  | nearbyFraction v b strict =>
    exact (leaves_eval v).bind fun _ => (b.leaves_arguments _).bind fun _ =>
      leaves_get.bind fun _ => (leaves_lift _).bind fun _ => leaves_pure _
  | nearbyPair v b strict =>
    exact (leaves_eval v).bind fun _ => (b.leaves_arguments _).bind fun _ =>
      leaves_get.bind fun _ => (leaves_lift _).bind fun _ => leaves_pure _
  | nearbyReduced v p strict =>
    exact (leaves_eval v).bind fun _ => (leaves_evalOr _ p).bind fun _ =>
      leaves_get.bind fun _ => (leaves_lift _).bind fun _ => leaves_pure _
  | rationalize x compiled b strict =>
    refine (leaves_eval x).bind fun _ => (b.leaves_arguments _).bind fun _ => ?_
    dsimp only
    split
    · refine (leaves_throw _).bind fun _ => leaves_get.bind fun _ => (leaves_lift _).bind fun r => ?_
      split <;> exact leaves_pure _
    · refine leaves_get.bind fun _ => (leaves_lift _).bind fun r => ?_
      split <;> exact leaves_pure _
  | greatestCommonDivisor x y =>
    exact (leaves_eval x).bind fun _ => (leaves_eval y).bind fun _ =>
      (leaves_lift _).bind fun _ => leaves_pure _
  | lowestTerms num denom =>
    exact (leaves_eval num).bind fun _ => (leaves_eval denom).bind fun _ =>
      (leaves_lift _).bind fun _ => leaves_pure _
  | fraction num denom =>
    refine (leaves_eval num).bind fun _ => (leaves_evalOr _ denom).bind fun _ =>
      (leaves_lift _).bind fun _ => ?_
    dsimp only
    split
    · exact (leaves_throw _).bind fun _ => leaves_pure _
    · exact leaves_pure _
  | compare left right =>
    exact (leaves_eval left).bind fun _ => (leaves_eval right).bind fun _ => leaves_pure _
  | hashesLike left right =>
    exact (leaves_key left).bind fun _ => (leaves_key right).bind fun _ => leaves_pure _
  | distinct items =>
    exact (leaves_foldlM leaves_keepDistinct items []).bind fun _ => leaves_pure _
  | sort items =>
    exact (leaves_evalAll items).bind fun _ => (leaves_lift _).bind fun _ => leaves_pure _
  | split v policy =>
    exact (leaves_eval v).bind fun _ => (leaves_eval policy).bind fun _ =>
      (leaves_lift _).bind fun _ => leaves_pure _
  | resolveCeiling asked =>
    exact (leaves_eval asked).bind fun _ => leaves_get.bind fun _ =>
      (leaves_lift _).bind fun _ => leaves_pure _
  | checkInput v p m =>
    exact (leaves_eval v).bind fun _ => (leaves_eval p).bind fun _ => (leaves_eval m).bind fun _ =>
      leaves_get.bind fun _ => (leaves_lift _).bind fun _ => leaves_pure _
  | results parts =>
    refine (leaves_mapM fun p _ => p.leaves_build).bind fun _ => ?_
    dsimp only
    split
    · exact (leaves_throw _).bind fun _ => leaves_pure _
    · exact leaves_pure _
  | showSettings => exact leaves_get.bind fun _ => leaves_pure _
  | configure changes => exact absurd trivial hc
  | apply name function arguments strict => exact absurd trivial hk

/-- A command that keeps a result leaves the data if it fails. -/
lemma leavesOnFault_answer {c : Command} (hc : ¬c.Configures) : LeavesOnFault data (answer c) := by
  by_cases hk : c.Keeps
  · cases c with
    | search v b strict keepAs =>
      cases keepAs with
      | none => cases hk
      | some name =>
        exact (leaves_eval v).leavesOnFault_bind fun _ =>
          (b.leaves_arguments _).leavesOnFault_bind fun _ =>
            leaves_get.leavesOnFault_bind fun _ => (leaves_lift _).leavesOnFault_bind fun _ _ _ h =>
              nomatch h
    | apply name function arguments strict =>
      exact leaves_get.leavesOnFault_bind fun _ =>
        (leaves_evalAll arguments).leavesOnFault_bind fun _ =>
          (leaves_lift _).leavesOnFault_bind fun _ =>
            (leaves_mark _).leavesOnFault_bind fun _ _ _ h => nomatch h
    | _ => cases hk
  · exact (leaves_answer hc hk).leavesOnFault

/-- A command that does not configure leaves the settings, even if it fails. -/
lemma leaves_settings_answer {c : Command} (hc : ¬c.Configures) :
    Leaves settings (answer c) := by
  by_cases hk : c.Keeps
  · cases c with
    | search v b strict keepAs =>
      cases keepAs with
      | none => cases hk
      | some name =>
        exact (leaves_eval v).settings.bind fun _ => (b.leaves_arguments _).settings.bind fun _ =>
          leaves_get.bind fun _ => (leaves_lift _).bind fun _ =>
            (leaves_settings_keep _ _).bind fun _ => (leaves_settings_keep _ _).bind fun _ =>
              leaves_pure _
    | apply name function arguments strict =>
      exact leaves_get.bind fun _ => (leaves_evalAll arguments).settings.bind fun _ =>
        (leaves_lift _).bind fun _ => (leaves_mark _).settings.bind fun _ =>
          (leaves_settings_keep _ _).bind fun _ => leaves_pure _
    | _ => cases hk
  · exact (leaves_answer hc hk).settings

/-! ## Configuring -/

lemma leaves_registers_configure (changes : List (Setting × Operand)) :
    Leaves registers (configure changes) := by
  induction changes with
  | nil => exact leaves_pure ()
  | cons change rest ih =>
    exact (leaves_eval change.2).registers.bind fun v =>
      (leaves_registers_change change.1 v).bind fun _ => ih

/-- A configuration makes its changes from the first on, and all of them if it succeeds. -/
theorem exists_configured (changes : List (Setting × Operand)) (s : Session) :
    ∃ made : List (Setting × Value), made.map Prod.fst <+: changes.map Prod.fst ∧
      ((configure changes).run.run s).2.settings =
        made.foldl (fun settings change => settings.set change.2 change.1) s.settings ∧
      (((configure changes).run.run s).1 = .ok () → made.length = changes.length) := by
  induction changes generalizing s with
  | nil => exact ⟨[], List.nil_prefix, rfl, fun _ => rfl⟩
  | cons change rest ih =>
    obtain ⟨setting, x⟩ := change
    have hleft := (leaves_eval x).settings s
    rcases hrun : x.eval.run.run s with ⟨fault | v, s'⟩
    · rw [hrun] at hleft
      refine ⟨[], List.nil_prefix, ?_⟩
      rw [configure, run_bind_of_error hrun]
      exact ⟨hleft, nofun⟩
    · rw [hrun] at hleft
      obtain ⟨made, hprefix, hsettings, hall⟩ :=
        ih { s' with settings := s'.settings.set v setting }
      refine ⟨(setting, v) :: made, List.cons_prefix_cons.mpr ⟨rfl, hprefix⟩, ?_⟩
      rw [configure, run_bind_of_ok hrun, List.foldl_cons, List.length_cons, List.length_cons]
      dsimp only at hleft hsettings
      rw [← hleft]
      exact ⟨hsettings, fun h => congrArg Nat.succ (hall h)⟩

/-! ## One command after the other -/

/-- What is answered to a command. -/
def answered (s : Session) (c : Command) : Except Fault Answer := ((answer c).run.run s).1

/-- The state after a command. -/
def after (s : Session) (c : Command) : Session := ((answer c).run.run s).2

/-- The state after a list of commands. -/
def advance (s : Session) (commands : List Command) : Session := commands.foldl after s

variable {s : Session} {c : Command} {commands rest : List Command}

lemma runFrom_cons : s.runFrom (c :: rest) = s.answered c :: (s.after c).runFrom rest := rfl

lemma advance_cons : s.advance (c :: rest) = (s.after c).advance rest := rfl

/-- A list of commands goes on where the commands before it have led. -/
theorem runFrom_append :
    s.runFrom (commands ++ rest) = s.runFrom commands ++ (s.advance commands).runFrom rest := by
  induction commands generalizing s with
  | nil => rfl
  | cons c commands ih => rw [List.cons_append, runFrom_cons, runFrom_cons, ih, advance_cons,
      List.cons_append]

/-- A command that fails leaves the data, unless it configures. -/
theorem data_after_of_error {fault : Fault} (hc : ¬c.Configures)
    (h : s.answered c = .error fault) : (s.after c).data = s.data :=
  leavesOnFault_answer hc s fault h

/-- Only a command that configures changes settings. -/
theorem settings_after (hc : ¬c.Configures) : (s.after c).settings = s.settings :=
  leaves_settings_answer hc s

/-- Commands that do not configure are all answered with the same settings. -/
theorem settings_advance (h : ∀ c ∈ commands, ¬c.Configures) :
    (s.advance commands).settings = s.settings := by
  induction commands generalizing s with
  | nil => rfl
  | cons c rest ih =>
    rw [List.forall_mem_cons] at h
    rw [advance_cons, ih h.2, settings_after h.1]

/-- Commands that all fail leave the data. -/
theorem data_advance (h : ∀ c ∈ commands, ¬c.Configures)
    (hfail : ∀ r ∈ s.runFrom commands, ∃ fault, r = .error fault) :
    (s.advance commands).data = s.data := by
  induction commands generalizing s with
  | nil => rfl
  | cons c rest ih =>
    rw [List.forall_mem_cons] at h
    rw [runFrom_cons, List.forall_mem_cons] at hfail
    obtain ⟨fault, hfault⟩ := hfail.1
    rw [advance_cons, ih h.2 hfail.2, data_after_of_error h.1 hfault]

end Session
end Mediant
