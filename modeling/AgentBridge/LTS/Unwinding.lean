import Mathlib.Data.List.Forall2
import AgentBridge.LTS.Basic

/-!
# Two runs that differ in hidden actions

A run of an executable system is given by the list of its actions; refused actions leave the
state as it was. Some actions are *hidden*: they belong to a party whose activity is to be
compared with its absence. The others are *seen*, under a name that does not depend on what the
hidden ones did.

Two runs that show the same seen actions, and interleave hidden ones differently, end in related
states and give the same answers, as soon as three local conditions hold: a hidden action on
either side keeps the relation, and so does a seen action performed on both sides.

* `LTS.Unwinding.related` : two runs with the same seen actions end in related states, and give
  the same answers.
-/

namespace LTS

variable {S L E O R : Type*} (exec : S → L → Except E S)

/-- The seen actions of a run, each with its answer. -/
def log (seen : S → L → Option O) (answer : S → L → R) : S → List L → List (O × R)
  | _, [] => []
  | s, l :: ls =>
    match seen s l with
    | none => log seen answer (attempt exec s l) ls
    | some o => (o, answer s l) :: log seen answer (attempt exec s l) ls

/-- Every step of a run satisfies the condition. -/
def Along (G : S → L → Prop) : S → List L → Prop
  | _, [] => True
  | s, l :: ls => G s l ∧ Along G (attempt exec s l) ls

/-- Some step of a run satisfies the condition. -/
def Occurs (H : S → L → Prop) : S → List L → Prop
  | _, [] => False
  | s, l :: ls => H s l ∨ Occurs H (attempt exec s l) ls

variable {exec}

/-- What holds if a condition occurs holds at each step where it does. -/
theorem along_of_occurs {P : Prop} {H : S → L → Prop} {s : S} {ls : List L}
    (h : Occurs exec H s ls → P) : Along exec (fun s l => H s l → P) s ls := by
  induction ls generalizing s with
  | nil => trivial
  | cons l ls ih => exact ⟨fun hl => h (.inl hl), ih fun hls => h (.inr hls)⟩

/-- The conditions hold for a family of conditions together. -/
theorem along_forall {I : Type*} {G : I → S → L → Prop} {s : S} {ls : List L}
    (h : ∀ i, Along exec (G i) s ls) : Along exec (fun s l => ∀ i, G i s l) s ls := by
  induction ls generalizing s with
  | nil => trivial
  | cons l ls ih => exact ⟨fun i => (h i).1, ih fun i => (h i).2⟩

/-- The local conditions under which hidden actions do not show. `P` selects the seen actions
whose answers are compared, and `G` restricts the steps that are considered. -/
structure Unwinding (exec : S → L → Except E S) (seen : S → L → Option O) (answer : S → L → R)
    (G : S → L → Prop) (P : O → Prop) (sim : S → S → Prop) : Prop where
  left : ∀ s t l, sim s t → G s l → seen s l = none → sim (attempt exec s l) t
  right : ∀ s t l, sim s t → G t l → seen t l = none → sim s (attempt exec t l)
  both : ∀ s t l m o, sim s t → G s l → G t m → seen s l = some o → seen t m = some o →
    sim (attempt exec s l) (attempt exec t m) ∧ (P o → answer s l = answer t m)

namespace Unwinding

variable {seen : S → L → Option O} {answer : S → L → R} {G : S → L → Prop} {P : O → Prop}
  {sim : S → S → Prop}

variable {ls : List L}

/-- Hidden actions alone keep the relation to the other run. -/
theorem left_of_log_nil (h : Unwinding exec seen answer G P sim) {s t : S} (hst : sim s t)
    (hG : Along exec G s ls) (hlog : log exec seen answer s ls = []) :
    sim (LTS.drive exec s ls) t := by
  induction ls generalizing s with
  | nil => exact hst
  | cons l ls ih =>
    rw [log] at hlog
    cases hseen : seen s l with
    | none =>
      rw [hseen] at hlog
      exact ih (h.left s t l hst hG.1 hseen) hG.2 hlog
    | some o => simp [hseen] at hlog

/-- If a run shows a first action, hidden ones before it keep the relation. -/
theorem left_of_log_cons (h : Unwinding exec seen answer G P sim) {s t : S} {o : O} {r : R}
    {rest : List (O × R)} (hst : sim s t) (hG : Along exec G s ls)
    (hlog : log exec seen answer s ls = (o, r) :: rest) :
    ∃ s' l ls', sim s' t ∧ G s' l ∧ Along exec G (attempt exec s' l) ls' ∧ seen s' l = some o ∧
      answer s' l = r ∧ log exec seen answer (attempt exec s' l) ls' = rest ∧
      LTS.drive exec s ls = LTS.drive exec (attempt exec s' l) ls' := by
  induction ls generalizing s with
  | nil => simp [log] at hlog
  | cons l ls ih =>
    rw [log] at hlog
    cases hseen : seen s l with
    | none =>
      rw [hseen] at hlog
      exact ih (h.left s t l hst hG.1 hseen) hG.2 hlog
    | some o' =>
      rw [hseen] at hlog
      have hhead : (o', answer s l) = (o, r) := (List.cons.inj hlog).1
      have htail : log exec seen answer (attempt exec s l) ls = rest := (List.cons.inj hlog).2
      cases hhead
      exact ⟨s, l, ls, hst, hG.1, hG.2, hseen, rfl, htail, rfl⟩

/-- The same conditions with the two runs exchanged. -/
theorem symm (h : Unwinding exec seen answer G P sim) :
    Unwinding exec seen answer G P fun s t => sim t s where
  left s t l hst hG hseen := h.right t s l hst hG hseen
  right s t l hst hG hseen := h.left t s l hst hG hseen
  both s t l m o hst hGs hGt hs ht := by
    obtain ⟨hnext, hanswer⟩ := h.both t s m l o hst hGt hGs ht hs
    exact ⟨hnext, fun hP => (hanswer hP).symm⟩

/-- **Two runs with the same seen actions end in related states, with the same answers.** -/
theorem related (h : Unwinding exec seen answer G P sim) {s t : S} {ms : List L} (hst : sim s t)
    (hs : Along exec G s ls) (ht : Along exec G t ms)
    (hsame : (log exec seen answer s ls).map Prod.fst = (log exec seen answer t ms).map Prod.fst) :
    sim (LTS.drive exec s ls) (LTS.drive exec t ms) ∧
      List.Forall₂ (fun x y => x.1 = y.1 ∧ (P x.1 → x.2 = y.2))
        (log exec seen answer s ls) (log exec seen answer t ms) := by
  -- induction on what the first run shows; hidden actions before it are skipped on both sides
  generalize hlog : log exec seen answer s ls = shown at hsame ⊢
  induction shown generalizing s t ls ms with
  | nil =>
    have htnil : log exec seen answer t ms = [] := List.map_eq_nil_iff.mp hsame.symm
    rw [htnil]
    have hleft := h.left_of_log_nil hst hs hlog
    exact ⟨h.symm.left_of_log_nil hleft ht htnil, .nil⟩
  | cons x rest ih =>
    obtain ⟨o, r⟩ := x
    obtain ⟨s', l, ls', hst', hGs, hs', hseen, rfl, hrest, hdrive⟩ :=
      h.left_of_log_cons hst hs hlog
    cases hlogt : log exec seen answer t ms with
    | nil => simp [hlogt] at hsame
    | cons y rest' =>
      obtain ⟨o', r'⟩ := y
      rw [hlogt, List.map_cons, List.map_cons, List.cons.injEq] at hsame
      obtain ⟨rfl, htail⟩ := hsame
      obtain ⟨t', m, ms', hst'', hGt, ht', hseen', rfl, hrest', hdrive'⟩ :=
        h.symm.left_of_log_cons hst' ht hlogt
      obtain ⟨hnext, hanswer⟩ := h.both s' t' l m o hst'' hGs hGt hseen hseen'
      obtain ⟨hend, hrel⟩ := ih hnext hs' ht' hrest (by rw [hrest']; exact htail)
      rw [hdrive, hdrive']
      refine ⟨hend, .cons ⟨rfl, hanswer⟩ ?_⟩
      rw [← hrest']
      exact hrel

end Unwinding

end LTS
