import Mathlib.Data.List.Induction

/-!
# Runs of a labelled transition system

A system is a partial step function `step : σ → α → Option σ`: the label `a` is enabled in `s`
exactly when `step s a` is `some`. A run is a left fold of `step` over a list of labels. The file
packages the inductions every safety argument needs, so that no client repeats them:

* `Run.invariant` — what every step preserves holds at the end of every run;
* `Run.invariant_along` — the same, when the steps only preserve it under a guard on the state
  before the step and its label;
* `Run.along_iff` — two guards that agree where an invariant holds agree along every run;
* `Run.all_good_iff` — when the guard decides whether a step keeps the invariant, the states of a
  run are all good exactly when the guard holds along it;
* `Run.simulate` — when every step of one system is a step of another, or none, between related
  states, the runs of the first are runs of the second.
-/

namespace OpenGps.Lib

variable {σ α : Type} {step : σ → α → Option σ}

/-- `Run step s as t`: taking the labels `as` from `s`, all of them enabled, ends in `t`. -/
def Run (step : σ → α → Option σ) (s : σ) (as : List α) (t : σ) : Prop :=
  as.foldlM step s = some t

namespace Run

@[simp] theorem nil_iff {s t : σ} : Run step s [] t ↔ s = t := by
  simp [Run]

theorem cons_iff {s t : σ} {a : α} {as : List α} :
    Run step s (a :: as) t ↔ ∃ u, step s a = some u ∧ Run step u as t := by
  simp [Run, Option.bind_eq_some_iff]

theorem append_iff {s t : σ} {as bs : List α} :
    Run step s (as ++ bs) t ↔ ∃ u, Run step s as u ∧ Run step u bs t := by
  simp [Run, List.foldlM_append, Option.bind_eq_some_iff]

theorem single {s t : σ} {a : α} (h : step s a = some t) : Run step s [a] t :=
  cons_iff.mpr ⟨t, h, nil_iff.mpr rfl⟩

/-- Where every label is enabled, every list of labels is a run. -/
theorem of_total (f : σ → α → σ) : ∀ (as : List α) (s : σ),
    Run (fun s a => some (f s a)) s as (as.foldl f s)
  | [], _ => nil_iff.mpr rfl
  | a :: as, s => cons_iff.mpr ⟨f s a, rfl, of_total f as (f s a)⟩

/-- What every enabled step preserves holds at the end of every run. -/
theorem invariant {Inv : σ → Prop}
    (hstep : ∀ s a t, Inv s → step s a = some t → Inv t) :
    ∀ {as : List α} {s t : σ}, Run step s as t → Inv s → Inv t
  | [], s, t, h, hs => nil_iff.mp h ▸ hs
  | a :: as, s, t, h, hs => by
    obtain ⟨u, hu, hrest⟩ := cons_iff.mp h
    exact invariant hstep hrest (hstep s a u hs hu)

end Run

/-- The guard `G` holds of every state the run passes through and the label it takes there. -/
def Along (step : σ → α → Option σ) (G : σ → α → Prop) : σ → List α → Prop
  | _, [] => True
  | s, a :: as => G s a ∧ ∀ t, step s a = some t → Along step G t as

namespace Along

variable {G : σ → α → Prop}

@[simp] theorem nil {s : σ} : Along step G s [] := trivial

theorem append_left {as bs : List α} :
    ∀ {s : σ}, Along step G s (as ++ bs) → Along step G s as := by
  induction as with
  | nil => intro _ _; trivial
  | cons a as ih =>
    intro s h
    exact ⟨h.1, fun t ht => ih (h.2 t ht)⟩

/-- What is left of the guard after a prefix of the run. -/
theorem append_right {as bs : List α} :
    ∀ {s t : σ}, Along step G s (as ++ bs) → Run step s as t → Along step G t bs := by
  induction as with
  | nil =>
    intro s t h hr
    exact Run.nil_iff.mp hr ▸ h
  | cons a as ih =>
    intro s t h hr
    obtain ⟨u, hu, hrest⟩ := Run.cons_iff.mp hr
    exact ih (h.2 u hu) hrest

theorem of_forall {as : List α} (h : ∀ s, ∀ a ∈ as, G s a) : ∀ {s : σ}, Along step G s as := by
  induction as with
  | nil => intro _; trivial
  | cons a as ih =>
    intro s
    exact ⟨h s a List.mem_cons_self,
      fun _ _ => ih fun s b hb => h s b (List.mem_cons_of_mem a hb)⟩

theorem snoc {as : List α} {a : α} : ∀ {s : σ}, Along step G s as →
    (∀ t, Run step s as t → G t a) → Along step G s (as ++ [a]) := by
  induction as with
  | nil =>
    intro s _ ha
    exact ⟨ha s (Run.nil_iff.mpr rfl), fun _ _ => trivial⟩
  | cons b as ih =>
    intro s h ha
    exact ⟨h.1, fun u hu => ih (h.2 u hu) fun t ht => ha t (Run.cons_iff.mpr ⟨u, hu, ht⟩)⟩

/-- The guard holds of the state a prefix of the run ends in and the label taken next. -/
theorem last {as : List α} {a : α} :
    ∀ {s t : σ}, Along step G s (as ++ [a]) → Run step s as t → G t a := by
  induction as with
  | nil => intro s t h hr; exact Run.nil_iff.mp hr ▸ h.1
  | cons b as ih =>
    intro s t h hr
    obtain ⟨u, hu, hrest⟩ := Run.cons_iff.mp hr
    exact ih (h.2 u hu) hrest

/-- A guard that can be tested can be tested along a run. -/
instance decidable [∀ s a, Decidable (G s a)] : ∀ s as, Decidable (Along step G s as)
  | _, [] => .isTrue trivial
  | s, a :: as =>
    match h : step s a with
    | none => decidable_of_iff (G s a) ⟨fun ha => ⟨ha, fun t ht => by cases h.symm.trans ht⟩,
        fun hs => hs.1⟩
    | some t =>
      have := decidable t as
      decidable_of_iff (G s a ∧ Along step G t as) ⟨fun hs => ⟨hs.1, fun u hu => by
        cases h.symm.trans hu
        exact hs.2⟩, fun hs => ⟨hs.1, hs.2 t h⟩⟩

end Along

/-- `Run.invariant` for steps that preserve the invariant only where the guard holds. -/
theorem Run.invariant_along {G : σ → α → Prop} {Inv : σ → Prop}
    (hstep : ∀ s a t, Inv s → G s a → step s a = some t → Inv t) :
    ∀ {as : List α} {s t : σ}, Along step G s as → Run step s as t → Inv s → Inv t
  | [], s, t, _, h, hs => Run.nil_iff.mp h ▸ hs
  | a :: as, s, t, hG, h, hs => by
    obtain ⟨u, hu, hrest⟩ := Run.cons_iff.mp h
    exact invariant_along hstep (hG.2 u hu) hrest (hstep s a u hs hG.1 hu)

/-- Two guards that agree where an invariant holds, which one of them keeps, agree along every run. -/
theorem Run.along_iff {G H : σ → α → Prop} (Inv : σ → Prop)
    (hiff : ∀ s a t, Inv s → step s a = some t → (H s a ↔ G s a))
    (hkeeps : ∀ s a t, Inv s → step s a = some t → G s a → Inv t) :
    ∀ {as : List α} {s t : σ}, Run step s as t → Inv s → (Along step H s as ↔ Along step G s as)
  | [], _, _, _, _ => Iff.rfl
  | a :: as, s, t, hrun, hs => by
    obtain ⟨u, hu, hrest⟩ := Run.cons_iff.mp hrun
    have hhere := hiff s a u hs hu
    have hlater : G s a → (Along step H u as ↔ Along step G u as) :=
      fun hG => along_iff Inv hiff hkeeps hrest (hkeeps s a u hs hu hG)
    constructor
    · rintro ⟨hH, hall⟩
      have hG := hhere.mp hH
      refine ⟨hG, fun v hv => ?_⟩
      obtain rfl : u = v := Option.some.inj (hu.symm.trans hv)
      exact (hlater hG).mp (hall u hv)
    · rintro ⟨hG, hall⟩
      refine ⟨hhere.mpr hG, fun v hv => ?_⟩
      obtain rfl : u = v := Option.some.inj (hu.symm.trans hv)
      exact (hlater hG).mpr (hall u hv)

/-- Where the guard keeps an invariant, and a step against the guard shows, every state the run
passes through is good exactly when its steps all meet the guard. -/
theorem Run.all_good_iff {G : σ → α → Prop} (Inv Good : σ → Prop)
    (hgood : ∀ s, Inv s → Good s)
    (hkeeps : ∀ s a t, Inv s → step s a = some t → G s a → Inv t)
    (hbreaks : ∀ s a t, Inv s → step s a = some t → ¬ G s a → ¬ Good t) :
    ∀ {as : List α} {s t : σ}, Run step s as t → Inv s →
      ((∀ bs u, bs <+: as → Run step s bs u → Good u) ↔ Along step G s as) := by
  intro as
  induction as with
  | nil =>
    intro s t _ hs
    refine ⟨fun _ => trivial, fun _ bs u hbs hu => ?_⟩
    rw [List.prefix_nil.mp hbs, Run.nil_iff] at hu
    exact hu ▸ hgood s hs
  | cons a as ih =>
    intro s t hrun hs
    obtain ⟨v, hv, hrest⟩ := Run.cons_iff.mp hrun
    constructor
    · intro hall
      have hguard : G s a := by
        by_contra hnot
        refine hbreaks s a v hs hv hnot (hall [a] v ⟨as, rfl⟩ ?_)
        exact Run.cons_iff.mpr ⟨v, hv, Run.nil_iff.mpr rfl⟩
      refine ⟨hguard, fun w hw => ?_⟩
      obtain rfl : v = w := Option.some.inj (hv.symm.trans hw)
      refine (ih hrest (hkeeps s a v hs hv hguard)).mp fun bs u hbs hu => ?_
      exact hall (a :: bs) u (List.cons_prefix_cons.mpr ⟨rfl, hbs⟩)
        (Run.cons_iff.mpr ⟨v, hv, hu⟩)
    · rintro ⟨hguard, hlater⟩ bs u hbs hu
      cases bs with
      | nil => exact Run.nil_iff.mp hu ▸ hgood s hs
      | cons b bs =>
        obtain ⟨rfl, htail⟩ := List.cons_prefix_cons.mp hbs
        obtain ⟨w, hw, hu⟩ := Run.cons_iff.mp hu
        obtain rfl : v = w := Option.some.inj (hv.symm.trans hw)
        exact (ih hrest (hkeeps s b v hs hv hguard)).mpr (hlater v hv) bs u htail hu

/-- `f` says which label of the other system a label stands for. -/
theorem Run.simulate {τ β : Type} {step' : τ → β → Option τ} {R : σ → τ → Prop} {f : α → Option β}
    (h : ∀ s a t p, R s p → step s a = some t → ∃ q, Run step' p (f a).toList q ∧ R t q) :
    ∀ {as : List α} {s t : σ} {p : τ}, Run step s as t → R s p →
      ∃ q, Run step' p (as.filterMap f) q ∧ R t q
  | [], s, t, p, hrun, hR => ⟨p, nil_iff.mpr rfl, nil_iff.mp hrun ▸ hR⟩
  | a :: as, s, t, p, hrun, hR => by
    obtain ⟨u, hu, hrest⟩ := cons_iff.mp hrun
    obtain ⟨m, hm, hRm⟩ := h s a u p hR hu
    obtain ⟨q, hq, hRq⟩ := simulate h hrest hRm
    refine ⟨q, ?_, hRq⟩
    have hlabels : (a :: as).filterMap f = (f a).toList ++ as.filterMap f := by
      rw [List.filterMap_cons]
      cases f a <;> rfl
    rw [hlabels]
    exact append_iff.mpr ⟨m, hm, hq⟩

end OpenGps.Lib
