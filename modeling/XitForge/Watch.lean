import XitForge.Program

/-!
Programs that keep a record beside their state. What a program does to the state
does not depend on the record, so a watched copy of a program says where its run
passes and in which state, and the run is that of the program.
-/
namespace XitForge.Program

abbrev Watched (μ σ ε α : Type) := Prog (σ × List μ) ε α

namespace Watched

variable {μ σ ε α β : Type}

/-- A part of the program that leaves nothing in the record. -/
def watch (m : Prog σ ε α) : Watched μ σ ε α := fun s => ((m s.1).1, (m s.1).2, s.2)

/-- What is to be known about the state here. -/
def note (seen : σ → μ) : Watched μ σ ε Unit := Prog.modify fun s => (s.1, s.2 ++ [seen s.1])

/-- `w` runs as `m` does, whatever is in the record. -/
def Records (w : Watched μ σ ε α) (m : Prog σ ε α) : Prop :=
  ∀ s record, (w (s, record)).1 = (m s).1 ∧ (w (s, record)).2.1 = (m s).2

variable {w : Watched μ σ ε α} {m : Prog σ ε α}

theorem Records.watch : Records (Watched.watch m : Watched μ σ ε α) m :=
  fun _ _ => ⟨rfl, rfl⟩

theorem Records.pure (value : α) : Records (pure value : Watched μ σ ε α) (pure value) :=
  fun _ _ => ⟨rfl, rfl⟩

theorem Records.bind {next : α → Watched μ σ ε β} {next' : α → Prog σ ε β} (h : Records w m)
    (hnext : ∀ value, Records (next value) (next' value)) :
    Records (w >>= next) (m >>= next') := by
  intro s record
  obtain ⟨houtcome, hstate⟩ := h s record
  show (Prog.bind w next (s, record)).1 = (Prog.bind m next' s).1 ∧
    (Prog.bind w next (s, record)).2.1 = (Prog.bind m next' s).2
  unfold Prog.bind
  rcases hw : w (s, record) with ⟨outcome, s', record'⟩
  rcases hm : m s with ⟨outcome', s''⟩
  rw [hw, hm] at houtcome hstate
  obtain rfl : outcome = outcome' := houtcome
  obtain rfl : s' = s'' := hstate
  cases outcome with
  | done value => exact hnext value s' record'
  | failed error => exact ⟨rfl, rfl⟩
  | stopped => exact ⟨rfl, rfl⟩

/-- A note is no step of the program. -/
theorem Records.note {seen : σ → μ} (h : Records w m) :
    Records (Watched.note seen >>= fun _ => w) m :=
  fun s record => h s (record ++ [seen s])

theorem Records.ite {c : Prop} [Decidable c] {w' : Watched μ σ ε α} {m' : Prog σ ε α}
    (hthen : Records w m) (helse : Records w' m') :
    Records (if c then w else w') (if c then m else m') := by
  by_cases hc : c
  · rw [if_pos hc, if_pos hc]
    exact hthen
  · rw [if_neg hc, if_neg hc]
    exact helse

section Noted

variable {p : μ → Prop} {P : σ → Prop} {F : ε → σ × List μ → Prop} {C : σ × List μ → Prop}

/-- A state in `P` beside a record whose entries all satisfy `p`. -/
def Noted (p : μ → Prop) (P : σ → Prop) (s : σ × List μ) : Prop := P s.1 ∧ ∀ entry ∈ s.2, p entry

/-- The record without anything about the state. -/
abbrev AllNoted (p : μ → Prop) : σ × List μ → Prop := Noted p fun _ => True

theorem Noted.all {s : σ × List μ} (h : Noted p P s) : AllNoted p s := ⟨True.intro, h.2⟩

/-- Whatever a part that notes nothing does to the state. -/
theorem watch_all (m : Prog σ ε α) :
    Triple (AllNoted p) (watch m) (fun _ => AllNoted p) (fun _ => AllNoted p) (AllNoted p) := by
  intro s hs
  unfold watch
  rcases m s.1 with ⟨outcome, s'⟩
  cases outcome with
  | done value => exact hs.all
  | failed error => exact hs.all
  | stopped => exact hs.all

theorem watch_get :
    Triple (AllNoted p) (watch Prog.get : Watched μ σ ε σ) (fun s => Noted p (· = s)) F C :=
  fun _ hs => ⟨rfl, hs.2⟩

theorem watch_modify {change : σ → σ} {Q : σ → Prop} (h : ∀ s, P s → Q (change s)) :
    Triple (Noted p P) (watch (Prog.modify change) : Watched μ σ ε Unit) (fun _ => Noted p Q) F C :=
  fun s hs => ⟨h s.1 hs.1, hs.2⟩

/-- An entry that satisfies `p` where it is noted. -/
theorem note_noted {seen : σ → μ} (h : ∀ s, P s → p (seen s)) :
    Triple (Noted p P) (note seen) (fun _ => Noted p P) F C := by
  refine Triple.modify fun s ⟨hP, hrecord⟩ => ⟨hP, fun entry hmem => ?_⟩
  rcases List.mem_append.mp hmem with hold | hlast
  · exact hrecord entry hold
  · rw [List.mem_singleton.mp hlast]
    exact h s.1 hP

/-- The record of a whole run. -/
theorem AllNoted.of_triple {w : Watched μ σ ε α}
    (h : Triple (AllNoted p) w (fun _ => AllNoted p) (fun _ => AllNoted p) (AllNoted p)) (s : σ) :
    ∀ entry ∈ (w (s, [])).2.2, p entry := by
  have hends := h (s, []) ⟨True.intro, by simp⟩
  rcases heq : w (s, []) with ⟨outcome, s'⟩
  rw [heq] at hends
  cases outcome with
  | done value => exact hends.2
  | failed error => exact hends.2
  | stopped => exact hends.2

end Noted

end Watched

end XitForge.Program
