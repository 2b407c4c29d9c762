import Mathlib.Order.Defs.Unbundled

/-!
Programs over a state whose steps can fail and can be interrupted. A failure
can be caught and reported; a stop ends the whole program where it stands, so
the last state of a stopped run is any state an interruption can leave behind.
`Triple` states what holds after each of the three ends, and `Keeps` what a
program leaves related to the state it started from, however it ends.
-/
namespace XitForge.Program

inductive Outcome (ε α : Type) where
  | done (value : α)
  | failed (error : ε)
  | stopped
  deriving DecidableEq, Repr

def Prog (σ ε α : Type) := σ → Outcome ε α × σ

namespace Prog

variable {σ ε α β γ : Type}

protected def bind (first : Prog σ ε α) (next : α → Prog σ ε β) : Prog σ ε β := fun s =>
  match first s with
  | (.done value, s') => next value s'
  | (.failed error, s') => (.failed error, s')
  | (.stopped, s') => (.stopped, s')

instance : Monad (Prog σ ε) where
  pure value s := (.done value, s)
  bind := Prog.bind

def fail (error : ε) : Prog σ ε α := fun s => (.failed error, s)

def stop : Prog σ ε α := fun s => (.stopped, s)

def get : Prog σ ε σ := fun s => (.done s, s)

def modify (change : σ → σ) : Prog σ ε Unit := fun s => (.done (), change s)

/-- A caller that looks at a failure instead of passing it on. -/
def attempt (body : Prog σ ε α) : Prog σ ε (Except ε α) := fun s =>
  match body s with
  | (.done value, s') => (.done (.ok value), s')
  | (.failed error, s') => (.done (.error error), s')
  | (.stopped, s') => (.stopped, s')

/-- One run after the other, whatever the first one returned. -/
def each (body : α → Prog σ ε Unit) : List α → Prog σ ε Unit
  | [] => pure ()
  | item :: rest => do
    body item
    each body rest

variable {m : Prog σ ε α} {next : α → Prog σ ε β} {s s' : σ}

theorem bind_done {value : α} (h : m s = (.done value, s')) : (m >>= next) s = next value s' := by
  show Prog.bind m next s = _
  rw [Prog.bind, h]

theorem bind_failed {error : ε} (h : m s = (.failed error, s')) :
    (m >>= next) s = (.failed error, s') := by
  show Prog.bind m next s = _
  rw [Prog.bind, h]

theorem bind_stopped (h : m s = (.stopped, s')) : (m >>= next) s = (.stopped, s') := by
  show Prog.bind m next s = _
  rw [Prog.bind, h]

theorem bind_congr {m' : Prog σ ε α} (h : m s = m' s') : (m >>= next) s = (m' >>= next) s' := by
  show Prog.bind m next s = Prog.bind m' next s'
  rw [Prog.bind, Prog.bind, h]

theorem bind_eq_done {value : β} (h : (m >>= next) s = (.done value, s')) :
    ∃ first middle, m s = (.done first, middle) ∧ next first middle = (.done value, s') := by
  change Prog.bind m next s = _ at h
  unfold Prog.bind at h
  rcases heq : m s with ⟨outcome, middle⟩
  rw [heq] at h
  cases outcome with
  | done first => exact ⟨first, middle, rfl, h⟩
  | failed error => cases h
  | stopped => cases h

theorem bind_eq_failed {error : ε} (h : (m >>= next) s = (.failed error, s')) :
    m s = (.failed error, s') ∨
      ∃ first middle, m s = (.done first, middle) ∧ next first middle = (.failed error, s') := by
  change Prog.bind m next s = _ at h
  unfold Prog.bind at h
  rcases heq : m s with ⟨outcome, middle⟩
  rw [heq] at h
  cases outcome with
  | done first => exact Or.inr ⟨first, middle, rfl, h⟩
  | failed error =>
    cases h
    exact Or.inl rfl
  | stopped => cases h

theorem bind_assoc {last : β → Prog σ ε γ} :
    m >>= next >>= last = m >>= fun value => next value >>= last := by
  funext s
  rcases h : m s with ⟨outcome, s'⟩
  show Prog.bind (Prog.bind m next) last s = Prog.bind m (fun value => Prog.bind (next value) last) s
  unfold Prog.bind
  rw [h]
  cases outcome <;> rfl

theorem each_append {body : α → Prog σ ε Unit} (items more : List α) :
    each body (items ++ more) = each body items >>= fun _ => each body more := by
  induction items with
  | nil => rfl
  | cons item rest ih =>
    show body item >>= (fun _ => each body (rest ++ more)) = _
    rw [ih]
    exact bind_assoc.symm

end Prog

open Prog

section Triple

variable {σ ε α β : Type}

/-- A normal return satisfies `Q`, a failure `F` and a stop `C`. -/
def Ends (Q : α → σ → Prop) (F : ε → σ → Prop) (C : σ → Prop) : Outcome ε α × σ → Prop
  | (.done value, s) => Q value s
  | (.failed error, s) => F error s
  | (.stopped, s) => C s

/-- What every run of `m` from a state in `P` ends in. -/
def Triple (P : σ → Prop) (m : Prog σ ε α) (Q : α → σ → Prop) (F : ε → σ → Prop)
    (C : σ → Prop) : Prop :=
  ∀ s, P s → Ends Q F C (m s)

variable {P P' : σ → Prop} {Q Q' : α → σ → Prop} {R : β → σ → Prop} {F F' : ε → σ → Prop}
  {C C' : σ → Prop} {m : Prog σ ε α}

theorem Triple.pure {value : α} (h : ∀ s, P s → Q value s) :
    Triple P (pure value : Prog σ ε α) Q F C := h

theorem Triple.fail {error : ε} (h : ∀ s, P s → F error s) :
    Triple P (Prog.fail error : Prog σ ε α) Q F C := h

theorem Triple.get {Q : σ → σ → Prop} (h : ∀ s, P s → Q s s) :
    Triple P (Prog.get : Prog σ ε σ) Q F C := h

theorem Triple.modify {Q : Unit → σ → Prop} {change : σ → σ} (h : ∀ s, P s → Q () (change s)) :
    Triple P (Prog.modify change : Prog σ ε Unit) Q F C := h

theorem Ends.mono {result : Outcome ε α × σ} (h : Ends Q F C result)
    (hQ : ∀ value s, Q value s → Q' value s) (hF : ∀ error s, F error s → F' error s)
    (hC : ∀ s, C s → C' s) : Ends Q' F' C' result := by
  obtain ⟨outcome, s⟩ := result
  cases outcome with
  | done value => exact hQ value s h
  | failed error => exact hF error s h
  | stopped => exact hC s h

theorem Triple.bind {next : α → Prog σ ε β} (hfirst : Triple P m Q F C)
    (hnext : ∀ value, Triple (Q value) (next value) R F C) : Triple P (m >>= next) R F C := by
  intro s hs
  have hm := hfirst s hs
  show Ends R F C (Prog.bind m next s)
  unfold Prog.bind
  rcases heq : m s with ⟨outcome, s'⟩
  rw [heq] at hm
  cases outcome with
  | done value => exact hnext value s' hm
  | failed error => exact hm
  | stopped => exact hm

theorem Triple.conseq (h : Triple P m Q F C) (hP : ∀ s, P' s → P s)
    (hQ : ∀ value s, Q value s → Q' value s) (hF : ∀ error s, F error s → F' error s)
    (hC : ∀ s, C s → C' s) : Triple P' m Q' F' C' :=
  fun s hs => (h s (hP s hs)).mono hQ hF hC

theorem Triple.pre (h : Triple P m Q F C) (hP : ∀ s, P' s → P s) : Triple P' m Q F C :=
  h.conseq hP (fun _ _ => id) (fun _ _ => id) fun _ => id

theorem Triple.post (h : Triple P m Q F C) (hQ : ∀ value s, Q value s → Q' value s) :
    Triple P m Q' F C :=
  h.conseq (fun _ => id) hQ (fun _ _ => id) fun _ => id

/-- A fact about no state may be taken out of the precondition. -/
theorem Triple.given {p : Prop} (h : p → Triple P m Q F C) : Triple (fun s => p ∧ P s) m Q F C :=
  fun s hs => h hs.1 s hs.2

/-- What a run that is done leaves. -/
theorem Triple.of_done (h : Triple P m Q F C) {s s' : σ} (hs : P s) {value : α}
    (hrun : m s = (.done value, s')) : Q value s' := by
  have hends := h s hs
  rw [hrun] at hends
  exact hends

theorem Triple.anyway : Triple P m (fun _ _ => True) (fun _ _ => True) fun _ => True := by
  intro s _
  rcases m s with ⟨outcome, s'⟩
  cases outcome <;> exact trivial

theorem Triple.ite {c : Prop} [Decidable c] {n : Prog σ ε α} (hthen : c → Triple P m Q F C)
    (helse : ¬ c → Triple P n Q F C) : Triple P (if c then m else n) Q F C := by
  split
  · exact hthen ‹_›
  · exact helse ‹_›

theorem Triple.attempt (h : Triple P m Q F C) {F' : ε → σ → Prop} :
    Triple P (Prog.attempt m : Prog σ ε (Except ε α))
      (fun result s => match result with
        | .ok value => Q value s
        | .error error => F error s) F' C := by
  intro s hs
  have hm := h s hs
  unfold Prog.attempt
  rcases heq : m s with ⟨outcome, s'⟩
  rw [heq] at hm
  cases outcome with
  | done value => exact hm
  | failed error => exact hm
  | stopped => exact hm

theorem Triple.each {I : σ → Prop} {body : α → Prog σ ε Unit} {items : List α}
    (h : ∀ item ∈ items, Triple I (body item) (fun _ => I) F C) :
    Triple I (Prog.each body items) (fun _ => I) F C := by
  induction items with
  | nil => exact Triple.pure fun _ => id
  | cons item rest ih =>
    refine Triple.bind (h item (List.mem_cons_self ..)) fun _ => ?_
    exact ih fun other hother => h other (List.mem_cons_of_mem _ hother)

end Triple

section Keeps

variable {σ ε α β : Type}

/-- However `m` ends, the state is related by `R` to the one it started from. -/
class Keeps (R : σ → σ → Prop) (m : Prog σ ε α) : Prop where
  keeps : ∀ s, R s (m s).2

variable {R : σ → σ → Prop} [IsPreorder σ R] {m : Prog σ ε α}

instance Keeps.pure (value : α) : Keeps R (pure value : Prog σ ε α) := ⟨fun s => refl_of R s⟩

instance Keeps.fail (error : ε) : Keeps R (Prog.fail error : Prog σ ε α) := ⟨fun s => refl_of R s⟩

instance Keeps.stop : Keeps R (Prog.stop : Prog σ ε α) := ⟨fun s => refl_of R s⟩

instance Keeps.get : Keeps R (Prog.get : Prog σ ε σ) := ⟨fun s => refl_of R s⟩

omit [IsPreorder σ R] in
theorem Keeps.modify {change : σ → σ} (h : ∀ s, R s (change s)) :
    Keeps R (Prog.modify change : Prog σ ε Unit) := ⟨h⟩

theorem Keeps.bind {next : α → Prog σ ε β} (hm : Keeps R m) (hnext : ∀ value, Keeps R (next value)) :
    Keeps R (m >>= next) := by
  constructor
  intro s
  have hfirst := hm.keeps s
  show R s (Prog.bind m next s).2
  unfold Prog.bind
  rcases heq : m s with ⟨outcome, s'⟩
  rw [heq] at hfirst
  cases outcome with
  | done value => exact trans_of R hfirst ((hnext value).keeps s')
  | failed error => exact hfirst
  | stopped => exact hfirst

omit [IsPreorder σ R] in
theorem Keeps.attempt (hm : Keeps R m) : Keeps R (Prog.attempt m : Prog σ ε (Except ε α)) := by
  constructor
  intro s
  have h := hm.keeps s
  unfold Prog.attempt
  rcases heq : m s with ⟨outcome, s'⟩
  rw [heq] at h
  cases outcome <;> exact h

theorem Keeps.each {body : α → Prog σ ε Unit} (items : List α)
    (h : ∀ item ∈ items, Keeps R (body item)) : Keeps R (Prog.each body items) := by
  induction items with
  | nil => exact Keeps.pure ()
  | cons item rest ih =>
    refine Keeps.bind (h item (List.mem_cons_self ..)) fun _ => ?_
    exact ih fun other hother => h other (List.mem_cons_of_mem _ hother)

omit [IsPreorder σ R] in
/-- An invariant that `R` preserves holds at every end of a program that keeps `R`. -/
theorem Keeps.triple {I : σ → Prop} (hm : Keeps R m) (hI : ∀ s s', I s → R s s' → I s') :
    Triple I m (fun _ => I) (fun _ => I) I := by
  intro s hs
  have h := hI s _ hs (hm.keeps s)
  rcases heq : m s with ⟨outcome, s'⟩
  rw [heq] at h
  cases outcome <;> exact h

omit [IsPreorder σ R] in
/-- What `R` preserves holds at the ends of a program that keeps `R`, besides the rest. -/
theorem Triple.frame {P I : σ → Prop} {Q : α → σ → Prop} {F : ε → σ → Prop} {C : σ → Prop}
    (h : Triple P m Q F C) (hm : Keeps R m) (hI : ∀ s s', I s → R s s' → I s') :
    Triple (fun s => I s ∧ P s) m (fun value s => I s ∧ Q value s) (fun error s => I s ∧ F error s)
      fun s => I s ∧ C s := by
  intro s hs
  have hends := h s hs.2
  have hframe := hI s _ hs.1 (hm.keeps s)
  rcases heq : m s with ⟨outcome, s'⟩
  rw [heq] at hends hframe
  cases outcome with
  | done value => exact ⟨hframe, hends⟩
  | failed error => exact ⟨hframe, hends⟩
  | stopped => exact ⟨hframe, hends⟩

omit [IsPreorder σ R] in
theorem Keeps.mono {R' : σ → σ → Prop} (hm : Keeps R m) (h : ∀ s s', R s s' → R' s s') :
    Keeps R' m := ⟨fun s => h s _ (hm.keeps s)⟩

instance Keeps.bind_inst {next : α → Prog σ ε β} [hm : Keeps R m] [hnext : ∀ value, Keeps R (next value)] :
    Keeps R (m >>= next) := Keeps.bind hm hnext

omit [IsPreorder σ R] in
instance Keeps.attempt_inst [hm : Keeps R m] : Keeps R (Prog.attempt m : Prog σ ε (Except ε α)) :=
  Keeps.attempt hm

instance Keeps.each_inst {body : α → Prog σ ε Unit} {items : List α}
    [h : ∀ item, Keeps R (body item)] : Keeps R (Prog.each body items) :=
  Keeps.each items fun item _ => h item

instance Keeps.foldlM_inst {body : β → α → Prog σ ε β} {items : List α} {start : β}
    [h : ∀ acc item, Keeps R (body acc item)] : Keeps R (items.foldlM body start) := by
  induction items generalizing start with
  | nil => exact Keeps.pure start
  | cons item rest ih =>
    rw [List.foldlM_cons]
    exact Keeps.bind (h start item) fun _ => ih

omit [IsPreorder σ R] in
instance Keeps.ite {c : Prop} [Decidable c] {n : Prog σ ε α} [hm : Keeps R m] [hn : Keeps R n] :
    Keeps R (if c then m else n) := by
  split
  · exact hm
  · exact hn

omit [IsPreorder σ R] in
theorem Keeps.branch {c : Prop} [Decidable c] {n : Prog σ ε α} (hthen : c → Keeps R m)
    (helse : ¬ c → Keeps R n) : Keeps R (if c then m else n) := by
  split
  · exact hthen ‹_›
  · exact helse ‹_›

end Keeps

section Invariant

variable {σ ε α β : Type} {I : σ → Prop} {m : Prog σ ε α}

/-- Where `I` holds it holds afterwards. -/
def Preserved (I : σ → Prop) (s s' : σ) : Prop := I s → I s'

instance : IsPreorder σ (Preserved I) where
  refl _ := id
  trans _ _ _ h h' := h' ∘ h

/-- `I` holds at every end of `m`, if it holds at its start. -/
theorem invariant_iff :
    Keeps (Preserved I) m ↔ Triple I m (fun _ => I) (fun _ => I) I := by
  constructor
  · intro h
    exact h.triple fun _ _ hs hpreserved => hpreserved hs
  · intro h
    constructor
    intro s hs
    have hm := h s hs
    rcases heq : m s with ⟨outcome, s'⟩
    rw [heq] at hm
    cases outcome <;> exact hm

/-- An invariant that is broken in between and set right again. -/
theorem Keeps.restore {Q : α → σ → Prop} {next : α → Prog σ ε β}
    (hm : Triple I m Q (fun _ => I) I)
    (hnext : ∀ value, Triple (Q value) (next value) (fun _ => I) (fun _ => I) I) :
    Keeps (Preserved I) (m >>= next) :=
  invariant_iff.mpr (Triple.bind hm hnext)

end Invariant

section Tracks

variable {σ ε α β γ : Type}

/-- From every state that `At` relates to `g`, `m` ends in one related to a value
as `Q`, `F` or `C` says: what a program does to an abstraction of its state. -/
def Tracks (At : γ → σ → Prop) (g : γ) (m : Prog σ ε α) (Q : α → γ → Prop) (F C : γ → Prop) :
    Prop :=
  Triple (At g) m (fun value s => ∃ g', At g' s ∧ Q value g') (fun _ s => ∃ g', At g' s ∧ F g')
    (fun s => ∃ g', At g' s ∧ C g')

variable {At : γ → σ → Prop} {g : γ} {m : Prog σ ε α} {Q Q' : α → γ → Prop}
  {R : β → γ → Prop} {F F' C C' : γ → Prop}

theorem Tracks.pure {value : α} (h : Q value g) :
    Tracks At g (pure value : Prog σ ε α) Q F C := fun _ hs => ⟨g, hs, h⟩

theorem Tracks.fail {error : ε} (h : F g) :
    Tracks At g (Prog.fail error : Prog σ ε α) Q F C := fun _ hs => ⟨g, hs, h⟩

theorem Tracks.bind {next : α → Prog σ ε β} (hm : Tracks At g m Q F C)
    (hnext : ∀ value g', Q value g' → Tracks At g' (next value) R F C) :
    Tracks At g (m >>= next) R F C :=
  Triple.bind hm fun value s ⟨g', hs, hQ⟩ => hnext value g' hQ s hs

theorem Tracks.conseq (h : Tracks At g m Q F C) (hQ : ∀ value g', Q value g' → Q' value g')
    (hF : ∀ g', F g' → F' g') (hC : ∀ g', C g' → C' g') : Tracks At g m Q' F' C' :=
  Triple.conseq h (fun _ => id) (fun value _ ⟨g', hs, h⟩ => ⟨g', hs, hQ value g' h⟩)
    (fun _ _ ⟨g', hs, h⟩ => ⟨g', hs, hF g' h⟩) fun _ ⟨g', hs, h⟩ => ⟨g', hs, hC g' h⟩

theorem Tracks.post (h : Tracks At g m Q F C) (hQ : ∀ value g', Q value g' → Q' value g') :
    Tracks At g m Q' F C := h.conseq hQ (fun _ => id) fun _ => id

/-- What a run that is done leaves. -/
theorem Tracks.of_done (h : Tracks At g m Q F C) {s s' : σ} (hs : At g s) {value : α}
    (hrun : m s = (.done value, s')) : ∃ g', At g' s' ∧ Q value g' := by
  have hends := h s hs
  rw [hrun] at hends
  exact hends

theorem Tracks.attempt (h : Tracks At g m Q F' C) :
    Tracks At g (Prog.attempt m : Prog σ ε (Except ε α))
      (fun result g' => match result with
        | .ok value => Q value g'
        | .error _ => F' g') F C := by
  refine Triple.post (Triple.attempt h) fun result s hs => ?_
  cases result with
  | ok value => exact hs
  | error error => exact hs

/-- What holds however `m` ends holds after the attempt. -/
theorem Tracks.attempt_always {I : γ → Prop} (h : Tracks At g m (fun _ => I) I C) :
    Tracks At g (Prog.attempt m : Prog σ ε (Except ε α)) (fun _ => I) F C := by
  refine (Tracks.attempt h).post fun result g' hI => ?_
  cases result <;> exact hI

theorem Tracks.ite {c : Prop} [Decidable c] {n : Prog σ ε α} (hthen : c → Tracks At g m Q F C)
    (helse : ¬ c → Tracks At g n Q F C) : Tracks At g (if c then m else n) Q F C :=
  Triple.ite hthen helse

/-- A loop with an invariant about the items that were dealt with. -/
theorem Tracks.each {body : α → Prog σ ε Unit} {I : List α → γ → Prop} (items : List α)
    (h : ∀ done item rest, items = done ++ item :: rest → ∀ g, I done g →
      Tracks At g (body item) (fun _ => I (done ++ [item])) F C) (g : γ) (hg : I [] g) :
    Tracks At g (Prog.each body items) (fun _ => I items) F C := by
  have hrun : ∀ rest done, items = done ++ rest → ∀ g, I done g →
      Tracks At g (Prog.each body rest) (fun _ => I items) F C := by
    intro rest
    induction rest with
    | nil =>
      intro done hitems g hg
      rw [List.append_nil] at hitems
      exact Tracks.pure (by rw [hitems]; exact hg)
    | cons item rest ih =>
      intro done hitems g hg
      refine Tracks.bind (h done item rest hitems g hg) fun _ g' hg' => ?_
      exact ih (done ++ [item]) (by rw [hitems, List.append_assoc]; rfl) g' hg'
  exact hrun items [] rfl g hg

/-- A program that keeps what the abstraction depends on leaves its value. -/
theorem Tracks.keeps {K : σ → σ → Prop} [hm : Keeps K m]
    (hAt : ∀ s s', At g s → K s s' → At g s') (hQ : ∀ value, Q value g) (hF : F g) (hC : C g) :
    Tracks At g m Q F C :=
  Triple.conseq (Keeps.triple hm hAt) (fun _ => id) (fun value _ hs => ⟨g, hs, hQ value⟩)
    (fun _ _ hs => ⟨g, hs, hF⟩) fun _ hs => ⟨g, hs, hC⟩

/-- Such a program may be passed over. -/
theorem Tracks.skip {K : σ → σ → Prop} {next : α → Prog σ ε β} [Keeps K m]
    (hAt : ∀ s s', At g s → K s s' → At g s') (hF : F g) (hC : C g)
    (hnext : ∀ value, Tracks At g (next value) R F C) : Tracks At g (m >>= next) R F C := by
  refine Tracks.bind (Q := fun _ g' => g' = g) (Tracks.keeps hAt (fun _ => rfl) hF hC) ?_
  intro value g' heq
  subst heq
  exact hnext value

end Tracks

end XitForge.Program
