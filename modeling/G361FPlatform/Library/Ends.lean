import G361FPlatform.Library.Digraph

namespace G361FPlatform.Library

open Relation

section

variable {α : Type u}

/-- A goal lies ahead, one step away or more. -/
def Ahead (R : α → α → Prop) (goal : α → Prop) (v : α) : Prop := ∃ g, goal g ∧ TransGen R v g

/-- A step from a place that is not known. -/
def Past (known : α → Prop) (R : α → α → Prop) (u v : α) : Prop := ¬known u ∧ R u v

/-- Where walks end that go on while a goal lies ahead.  From a known place they end where it is
known that they do. -/
inductive EndsAt (R : α → α → Prop) (goal known : α → Prop) (old : α → α → Prop) : α → α → Prop
  | known {u x : α} : known u → old u x → EndsAt R goal known old u x
  | stop {u x : α} : ¬known u → R u x → ¬Ahead R goal x → EndsAt R goal known old u x
  | step {u v x : α} : ¬known u → R u v → Ahead R goal v → EndsAt R goal known old v x →
    EndsAt R goal known old u x

/-- The same where nothing is known. -/
def Ends (R : α → α → Prop) (goal : α → Prop) : α → α → Prop :=
  EndsAt R goal (fun _ => False) fun _ _ => False

variable {R : α → α → Prop} {goal known known' : α → Prop} {old old' : α → α → Prop} {u v w x : α}

theorem Ahead.of_reflTransGen (hv : Ahead R goal v) (h : ReflTransGen R u v) : Ahead R goal u := by
  obtain ⟨g, hg, hgo⟩ := hv
  exact ⟨g, hg, hgo.trans_right h⟩

theorem Depth.ne_zero_iff {n : Nat} (h : Depth R goal v n) : n ≠ 0 ↔ Ahead R goal v := by
  constructor
  · intro hne
    obtain ⟨g, hg, hwalk⟩ := h.attained.resolve_left hne
    cases hwalk with
    | nil => exact absurd rfl hne
    | cons hstep hrest => exact ⟨g, hg, .head' hstep hrest.reflTransGen⟩
  · rintro ⟨g, hg, hgo⟩
    obtain ⟨w, hstep, hrest⟩ := TransGen.head'_iff.mp hgo
    obtain ⟨m, hwalk⟩ := exists_walk_iff.mpr hrest
    have hle := h.le g (m + 1) hg (.cons hstep hwalk)
    omega

theorem reflTransGen_of_past (h : ReflTransGen (Past known R) u v) : ReflTransGen R u v :=
  ReflTransGen.mono (fun _ _ hstep => hstep.2) _ _ h

theorem transGen_of_past (h : TransGen (Past known R) u v) : TransGen R u v :=
  TransGen.mono (fun _ _ hstep => hstep.2) _ _ h

namespace EndsAt

theorem congr (hknown : ∀ n, known n ↔ known' n) (hold : ∀ n x, known n → old n x → old' n x)
    (h : EndsAt R goal known old u x) : EndsAt R goal known' old' u x := by
  induction h with
  | known hu hx => exact .known ((hknown _).mp hu) (hold _ _ hu hx)
  | stop hu hstep hx => exact .stop (fun h => hu ((hknown _).mpr h)) hstep hx
  | step hu hstep hv _ ih => exact .step (fun h => hu ((hknown _).mpr h)) hstep hv ih

theorem transGen (hold : ∀ n x, known n → old n x → TransGen R n x) (h : EndsAt R goal known old u x) :
    TransGen R u x := by
  induction h with
  | known hu hx => exact hold _ _ hu hx
  | stop _ hstep _ => exact .single hstep
  | step _ hstep _ _ ih => exact .head hstep ih

theorem prepend (hw : Ahead R goal w) (hx : EndsAt R goal known old w x)
    (h : ReflTransGen (Past known R) u w) :
    EndsAt R goal known old u x := by
  induction h using ReflTransGen.head_induction_on with
  | refl => exact hx
  | head hstep hrest ih =>
    exact .step hstep.1 hstep.2 (hw.of_reflTransGen (reflTransGen_of_past hrest)) ih

theorem of_past (hx : goal x) (hlast : ¬Ahead R goal x) (h : TransGen (Past known R) u x) :
    EndsAt R goal known old u x := by
  induction h using TransGen.head_induction_on with
  | single hstep => exact .stop hstep.1 hstep.2 hlast
  | head hstep hrest ih => exact .step hstep.1 hstep.2 ⟨x, hx, transGen_of_past hrest⟩ ih

theorem of_known (hx : goal x) (hold : ∀ n, known n → TransGen R n x → old n x) (hw : known w)
    (hwx : TransGen R w x)
    (h : ReflTransGen R u w) : EndsAt R goal known old u x := by
  induction h using ReflTransGen.head_induction_on with
  | refl => exact .known hw (hold w hw hwx)
  | @head u v hstep hrest ih =>
    have hvx := hwx.trans_right hrest
    by_cases hu : known u
    · exact .known hu (hold u hu (.head hstep hvx))
    · exact .step hu hstep ⟨x, hx, hvx⟩ ih

theorem cases_past (h : EndsAt R goal known old u x) :
    (¬Ahead R goal x ∧ TransGen (Past known R) u x) ∨ ∃ w, ReflTransGen R u w ∧ known w ∧ old w x := by
  induction h with
  | known hu hx => exact .inr ⟨_, .refl, hu, hx⟩
  | stop hu hstep hx => exact .inl ⟨hx, .single ⟨hu, hstep⟩⟩
  | step hu hstep _ _ ih =>
    rcases ih with ⟨hlast, hpast⟩ | ⟨w, hvw, hw, hx⟩
    · exact .inl ⟨hlast, .head ⟨hu, hstep⟩ hpast⟩
    · exact .inr ⟨w, .head hstep hvw, hw, hx⟩

theorem forall_of_onward {Q : α → Prop}
    (hknown : ∀ w x, (w = u ∨ TransGen R u w) → known w → old w x → Q x)
    (hstop : ∀ w, (w = u ∨ TransGen R u w ∧ Ahead R goal w) → ¬known w →
      ∀ x, R w x → ¬Ahead R goal x → Q x)
    (h : EndsAt R goal known old u x) : Q x := by
  have hgen : ∀ {w x}, (w = u ∨ TransGen R u w ∧ Ahead R goal w) →
      EndsAt R goal known old w x → Q x := by
    intro w x hw hends
    induction hends with
    | known hk hx => exact hknown _ _ (hw.imp_right And.left) hk hx
    | stop hk hstep hx => exact hstop _ hw hk _ hstep hx
    | step hk hstep hv _ ih =>
      refine ih (.inr ⟨?_, hv⟩)
      rcases hw with rfl | ⟨huw, -⟩
      · exact .single hstep
      · exact huw.tail hstep
  exact hgen (.inl rfl) h

end EndsAt

theorem Ends.transGen (h : Ends R goal u x) : TransGen R u x :=
  EndsAt.transGen (fun _ _ h => h.elim) h

theorem Ends.not_ahead (h : Ends R goal u x) : ¬Ahead R goal x := by
  rcases EndsAt.cases_past h with ⟨hlast, -⟩ | ⟨-, -, h, -⟩
  · exact hlast
  · exact h.elim

theorem ends_of_transGen (hx : goal x) (hlast : ¬Ahead R goal x) (h : TransGen R u x) :
    Ends R goal u x :=
  EndsAt.of_past hx hlast (TransGen.mono (fun _ _ hstep => ⟨id, hstep⟩) _ _ h)

theorem exists_ends {level : α → Nat} (hdepth : ∀ v, Depth R goal v (level v)) (hstep : R u v) :
    ∃ x, Ends R goal u x := by
  generalize hn : level v = n
  induction n using Nat.strong_induction_on generalizing u v with
  | _ n ih =>
    by_cases hv : Ahead R goal v
    · obtain ⟨g, hg, hwalk⟩ := (hdepth v).attained.resolve_left ((hdepth v).ne_zero_iff.mpr hv)
      cases hlevel : level v with
      | zero => exact absurd hlevel ((hdepth v).ne_zero_iff.mpr hv)
      | succ m =>
        rw [hlevel] at hwalk
        cases hwalk with
        | @cons _ w _ _ hnext hrest =>
          have hlt : level w < n := by
            rcases (hdepth w).attained with hzero | ⟨g', hg', hwalk'⟩
            · omega
            · have hle := (hdepth v).le g' _ hg' (.cons hnext hwalk')
              omega
          obtain ⟨x, hx⟩ := ih (level w) hlt hnext rfl
          exact ⟨x, .step id hstep hv hx⟩
    · exact ⟨v, .stop id hstep hv⟩

/-- All goals ahead are ends exactly where no goal ahead leads to another. -/
theorem ends_complete_iff :
    (∀ g, goal g → (Ends R goal u g ↔ TransGen R u g)) ↔
      ∀ g, goal g → TransGen R u g → ¬Ahead R goal g := by
  constructor
  · intro h g hg hgo
    exact ((h g hg).mpr hgo).not_ahead
  · intro h g hg
    exact ⟨Ends.transGen, fun hgo => ends_of_transGen hg (h g hg hgo) hgo⟩

/-- All ends are goals exactly where no step on the way leads astray. -/
theorem ends_sound_iff :
    (∀ x, Ends R goal u x → goal x) ↔
      ∀ w, (w = u ∨ TransGen R u w ∧ Ahead R goal w) → ∀ x, R w x → goal x ∨ Ahead R goal x := by
  constructor
  · intro h w hw x hstep
    by_contra hnot
    rw [not_or] at hnot
    have hstop : Ends R goal w x := .stop id hstep hnot.2
    rcases hw with rfl | ⟨huw, hahead⟩
    · exact hnot.1 (h x hstop)
    · refine hnot.1 (h x (EndsAt.prepend hahead hstop ?_))
      exact ReflTransGen.mono (fun _ _ hstep => ⟨id, hstep⟩) _ _ huw.to_reflTransGen
  · intro h x hx
    refine EndsAt.forall_of_onward (fun _ _ _ h => h.elim) (fun w hw _ y hstep hlast => ?_) hx
    exact (h w hw y hstep).resolve_right hlast

end

end G361FPlatform.Library
