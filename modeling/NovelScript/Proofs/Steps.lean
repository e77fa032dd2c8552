import NovelScript.Byte.Word

/-!
# Steps that can fail

Compiler, decompiler and archive are steps on a state that can fail, and a failed step keeps the
state it has reached.  `Ends m s Q E` says how the step `m` ends in the state `s`.  The lemmas about
it go through a step from its end to its beginning, so that a statement about a step becomes one
about the state in which it starts.  `Idles` says that a step changes nothing, and `Alike` compares
two steps, which may start in different states.
-/

namespace NovelScript

variable {ε σ α β : Type}

/-- Started in `s`, the step answers `Q` together with the state it leaves, or fails with `E`. -/
def Ends (m : ExceptT ε (StateM σ) α) (s : σ) (Q : α → σ → Prop) (E : ε → σ → Prop) : Prop :=
  match (m.run.run s : Except ε α × σ) with
  | (.ok a, t) => Q a t
  | (.error e, t) => E e t

/-- Claims nothing of a failure. -/
def anyFailure (_ : ε) (_ : σ) : Prop := True

/-- Rules a failure out. -/
def noFailure (_ : ε) (_ : σ) : Prop := False

section

variable {m : ExceptT ε (StateM σ) α} {s t : σ} {Q Q' : α → σ → Prop} {E E' : ε → σ → Prop}

/-! ## Results -/

/-- A computation answers only if each of its steps does. -/
theorem bind_eq_ok_iff {r : Except ε α} {f : α → Except ε β} {b : β} :
    r >>= f = .ok b ↔ ∃ a, r = .ok a ∧ f a = .ok b := by
  cases r with
  | error e => simp [bind, Except.bind]
  | ok a => simp [bind, Except.bind]

/-- A result that passes a test is an answer. -/
theorem exists_ok_of_any {r : Except ε α} {p : α → Bool} (h : r.toOption.any p = true) :
    ∃ a, r = .ok a ∧ p a = true := by
  cases r with
  | error e => exact Bool.noConfusion h
  | ok a => exact ⟨a, rfl, h⟩

/-! ## Going through a step -/

theorem run_bind (m : ExceptT ε (StateM σ) α) (f : α → ExceptT ε (StateM σ) β) (s : σ) :
    ((m >>= f).run.run s : Except ε β × σ) =
      match (m.run.run s : Except ε α × σ) with
      | (.ok a, t) => (f a).run.run t
      | (.error e, t) => (.error e, t) := by
  show ExceptT.bindCont f (m.run.run s).1 (m.run.run s).2 = _
  rcases (m.run.run s : Except ε α × σ) with ⟨a | a, t⟩ <;> rfl

theorem run_tryCatch (m : ExceptT ε (StateM σ) α) (f : ε → ExceptT ε (StateM σ) α) (s : σ) :
    ((tryCatch m f).run.run s : Except ε α × σ) =
      match (m.run.run s : Except ε α × σ) with
      | (.ok a, t) => (.ok a, t)
      | (.error e, t) => (f e).run.run t := by
  show (match (m.run.run s).1 with
    | .ok a => pure (.ok a)
    | .error e => f e : StateM σ (Except ε α)) (m.run.run s).2 = _
  rcases (m.run.run s : Except ε α × σ) with ⟨a | a, t⟩ <;> rfl

@[simp] theorem ends_pure {a : α} : Ends (pure a) s Q E ↔ Q a s := Iff.rfl

@[simp] theorem ends_throw {e : ε} : Ends (throw e) s Q E ↔ E e s := Iff.rfl

@[simp] theorem ends_get {Q : σ → σ → Prop} {E : ε → σ → Prop} : Ends get s Q E ↔ Q s s := Iff.rfl

@[simp] theorem ends_set {Q : PUnit → σ → Prop} {E : ε → σ → Prop} :
    Ends (set t) s Q E ↔ Q ⟨⟩ t := Iff.rfl

@[simp] theorem ends_modify {Q : PUnit → σ → Prop} {E : ε → σ → Prop} {f : σ → σ} :
    Ends (modify f) s Q E ↔ Q ⟨⟩ (f s) := Iff.rfl

/-- A pure result as a step. -/
theorem ends_mk {r : Except ε α} :
    Ends (ExceptT.mk (pure r)) s Q E ↔ (∀ a, r = .ok a → Q a s) ∧ ∀ e, r = .error e → E e s := by
  cases r <;> simp [Ends] <;> rfl

theorem ends_mk_ok {a : α} : Ends (ExceptT.mk (pure (.ok a))) s Q E ↔ Q a s := Iff.rfl

@[simp] theorem ends_bind {f : α → ExceptT ε (StateM σ) β} {Q : β → σ → Prop} :
    Ends (m >>= f) s Q E ↔ Ends m s (fun a t => Ends (f a) t Q E) E := by
  simp only [Ends, run_bind]
  rcases (m.run.run s : Except ε α × σ) with ⟨a | a, t⟩ <;> rfl

@[simp] theorem ends_tryCatch {f : ε → ExceptT ε (StateM σ) α} :
    Ends (tryCatch m f) s Q E ↔ Ends m s Q fun e t => Ends (f e) t Q E := by
  simp only [Ends, run_tryCatch]
  rcases (m.run.run s : Except ε α × σ) with ⟨a | a, t⟩ <;> rfl

theorem ends_discard {Q : PUnit → σ → Prop} :
    Ends (discard m) s Q E ↔ Ends m s (fun _ t => Q ⟨⟩ t) E := by
  have hrun : ((discard m).run.run s : Except ε PUnit × σ) =
      match (m.run.run s : Except ε α × σ) with
      | (.ok _, t) => (.ok ⟨⟩, t)
      | (.error e, t) => (.error e, t) := by
    show (match (m.run.run s).1 with
      | .ok _ => pure (.ok ⟨⟩)
      | .error e => pure (.error e) : StateM σ (Except ε PUnit)) (m.run.run s).2 = _
    rcases (m.run.run s : Except ε α × σ) with ⟨a | a, t⟩ <;> rfl
  simp only [Ends, hrun]
  rcases (m.run.run s : Except ε α × σ) with ⟨a | a, t⟩ <;> rfl

/-! ## What is known of an end -/

/-- What is known of the end of a step may be weakened. -/
theorem Ends.mono (h : Ends m s Q E) (hQ : ∀ a t, Q a t → Q' a t) (hE : ∀ e t, E e t → E' e t) :
    Ends m s Q' E' := by
  unfold Ends at h ⊢
  rcases hrun : (m.run.run s : Except ε α × σ) with ⟨e | a, t⟩
  all_goals rw [hrun] at h
  · exact hE e t h
  · exact hQ a t h

/-- What is known of the answer of a step may be weakened. -/
theorem Ends.imp (h : Ends m s Q E) (hQ : ∀ a t, Q a t → Q' a t) : Ends m s Q' E :=
  h.mono hQ fun _ _ => id

/-- What is known of the end of a step from two sides holds together. -/
theorem Ends.and (h : Ends m s Q E) (h' : Ends m s Q' E') :
    Ends m s (fun a t => Q a t ∧ Q' a t) fun e t => E e t ∧ E' e t := by
  unfold Ends at h h' ⊢
  rcases hrun : (m.run.run s : Except ε α × σ) with ⟨e | a, t⟩
  all_goals
    rw [hrun] at h h'
    exact ⟨h, h'⟩

/-- Of a step that cannot fail anything is known where it fails. -/
theorem Ends.of_noFailure (h : Ends m s Q noFailure) : Ends m s Q E :=
  h.mono (fun _ _ => id) fun _ _ => False.elim

/-- What is known of the end of a step that cannot fail is known of its answer. -/
theorem Ends.of_certain (h : Ends m s Q noFailure) (h' : Ends m s Q' E') : Ends m s Q' noFailure :=
  (h.and h').mono (fun _ _ => And.right) fun _ _ => And.left

theorem Ends.of_run {r : Except ε α} (h : Ends m s Q E)
    (hrun : (m.run.run s : Except ε α × σ) = (r, t)) :
    (∀ a, r = .ok a → Q a t) ∧ ∀ e, r = .error e → E e t := by
  unfold Ends at h
  rw [hrun] at h
  cases r <;> simpa using h

/-- What holds however a step ends holds of the state it leaves. -/
theorem Ends.after {P : σ → Prop} {r : Except ε α} (h : Ends m s (fun _ => P) fun _ => P)
    (hrun : (m.run.run s : Except ε α × σ) = (r, t)) : P t := by
  cases r with
  | ok a => exact (h.of_run hrun).1 a rfl
  | error e => exact (h.of_run hrun).2 e rfl

/-- A step that cannot fail answers. -/
theorem Ends.run_eq (h : Ends m s Q noFailure) :
    ∃ a t, (m.run.run s : Except ε α × σ) = (.ok a, t) ∧ Q a t := by
  unfold Ends at h
  rcases hrun : (m.run.run s : Except ε α × σ) with ⟨e | a, t⟩
  · rw [hrun] at h
    exact h.elim
  · rw [hrun] at h
    exact ⟨a, t, rfl, h⟩

/-- Where a step answers, what is known of its end is known of this answer. -/
theorem ends_of_run_ok {a : α} (hrun : (m.run.run s : Except ε α × σ) = (.ok a, t)) :
    Ends m s Q E ↔ Q a t := by
  rw [Ends, hrun]

end

/-! ## What a step answers -/

section

variable {m : ExceptT ε (StateM σ) α} {s t : σ} {a b : α}

/-- Started in `s`, the step answers `a` and leaves `t`. -/
def Answers (m : ExceptT ε (StateM σ) α) (s : σ) (a : α) (t : σ) : Prop :=
  (m.run.run s : Except ε α × σ) = (.ok a, t)

@[simp] theorem answers_pure :
    Answers (pure a : ExceptT ε (StateM σ) α) s b t ↔ a = b ∧ s = t := by
  show ((.ok a, s) : Except ε α × σ) = (.ok b, t) ↔ _
  rw [Prod.mk.injEq, Except.ok.injEq]

@[simp] theorem answers_throw {e : ε} : ¬ Answers (throw e : ExceptT ε (StateM σ) α) s b t :=
  fun h => nomatch (Prod.mk.inj h).1

@[simp] theorem answers_get {u : σ} :
    Answers (get : ExceptT ε (StateM σ) σ) s u t ↔ s = u ∧ s = t := by
  show ((.ok s, s) : Except ε σ × σ) = (.ok u, t) ↔ _
  rw [Prod.mk.injEq, Except.ok.injEq]

@[simp] theorem answers_set {u : σ} {x : PUnit} :
    Answers (set u : ExceptT ε (StateM σ) PUnit) s x t ↔ u = t := by
  show ((.ok ⟨⟩, u) : Except ε PUnit × σ) = (.ok x, t) ↔ _
  rw [Prod.mk.injEq, and_iff_right rfl]

@[simp] theorem answers_modify {f : σ → σ} {x : PUnit} :
    Answers (modify f : ExceptT ε (StateM σ) PUnit) s x t ↔ f s = t := by
  show ((.ok ⟨⟩, f s) : Except ε PUnit × σ) = (.ok x, t) ↔ _
  rw [Prod.mk.injEq, and_iff_right rfl]

/-- A pure result as a step that answers. -/
theorem answers_mk {r : Except ε α} :
    Answers (ExceptT.mk (pure r) : ExceptT ε (StateM σ) α) s b t ↔ r = .ok b ∧ s = t := by
  show ((r, s) : Except ε α × σ) = (.ok b, t) ↔ _
  rw [Prod.mk.injEq]

@[simp] theorem answers_bind {f : α → ExceptT ε (StateM σ) β} {b : β} {u : σ} :
    Answers (m >>= f) s b u ↔ ∃ a t, Answers m s a t ∧ Answers (f a) t b u := by
  simp only [Answers, run_bind]
  rcases (m.run.run s : Except ε α × σ) with ⟨e | a, t⟩
  · exact ⟨fun h => (nomatch (Prod.mk.inj h).1), fun ⟨_, _, h, _⟩ => nomatch (Prod.mk.inj h).1⟩
  · refine ⟨fun h => ⟨a, t, rfl, h⟩, ?_⟩
    rintro ⟨_, _, h, hf⟩
    obtain ⟨ha, rfl⟩ := Prod.mk.inj h
    obtain rfl := Except.ok.inj ha
    exact hf

end

/-! ## Steps that change nothing -/

section

variable {m : ExceptT ε (StateM σ) α} {s : σ} {r : Except ε α}

/-- Started in `s`, the step ends with `r` and leaves `s` as it is. -/
def Idles (m : ExceptT ε (StateM σ) α) (s : σ) (r : Except ε α) : Prop :=
  (m.run.run s : Except ε α × σ) = (r, s)

theorem idles_iff :
    Idles m s r ↔ Ends m s (fun a t => r = .ok a ∧ t = s) fun e t => r = .error e ∧ t = s := by
  unfold Idles Ends
  rcases (m.run.run s : Except ε α × σ) with ⟨e | a, t⟩
  all_goals
    rw [Prod.mk.injEq]
    exact ⟨fun h => ⟨h.1.symm, h.2⟩, fun h => ⟨h.1.symm, h.2⟩⟩

/-- A step goes on behind one that changes nothing. -/
theorem Idles.bind {f : α → ExceptT ε (StateM σ) β} {a : α} {r : Except ε β}
    (h : Idles m s (.ok a)) (hf : Idles (f a) s r) : Idles (m >>= f) s r := by
  unfold Idles at h hf ⊢
  rw [run_bind, h]
  exact hf

/-- A step stops behind one that fails. -/
theorem Idles.bind_error {f : α → ExceptT ε (StateM σ) β} {e : ε} (h : Idles m s (.error e)) :
    Idles (m >>= f) s (.error e) := by
  unfold Idles at h ⊢
  rw [run_bind, h]

end

/-! ## Two steps side by side -/

section

variable {m m' : ExceptT ε (StateM σ) α} {s s' : σ} {R : α → α → σ → σ → Prop}

/-- Started in `s` and `s'`, both steps answer and `R` holds of the answers and the states they
leave, or both fail with the same error. -/
def Alike (m m' : ExceptT ε (StateM σ) α) (s s' : σ) (R : α → α → σ → σ → Prop) : Prop :=
  Ends m s (fun a t => Ends m' s' (fun a' t' => R a a' t t') noFailure)
    fun e _ => Ends m' s' (fun _ _ => False) fun e' _ => e' = e

theorem alike_pure {a a' : α} (h : R a a' s s') :
    Alike (pure a : ExceptT ε (StateM σ) α) (pure a') s s' R := h

theorem alike_throw {e : ε} :
    Alike (throw e : ExceptT ε (StateM σ) α) (throw e) s s' R := Eq.refl e

theorem alike_modify {R : PUnit → PUnit → σ → σ → Prop} {f f' : σ → σ}
    (h : R ⟨⟩ ⟨⟩ (f s) (f' s')) :
    Alike (modify f : ExceptT ε (StateM σ) PUnit) (modify f') s s' R := h

/-- What follows two steps that are alike has to be so behind all that they may answer. -/
theorem Alike.bind {f f' : α → ExceptT ε (StateM σ) β} {Q : β → β → σ → σ → Prop}
    (h : Alike m m' s s' R) (hf : ∀ a a' t t', R a a' t t' → Alike (f a) (f' a') t t' Q) :
    Alike (m >>= f) (m' >>= f') s s' Q := by
  rw [Alike, ends_bind]
  refine Ends.mono h ?_ ?_
  · intro a t h'
    obtain ⟨a', t', hrun, hR⟩ := h'.run_eq
    simp only [ends_bind, ends_of_run_ok hrun]
    exact hf a a' t t' hR
  · intro e t h'
    rw [ends_bind]
    exact h'.imp fun _ _ => False.elim

theorem alike_get_bind {f f' : σ → ExceptT ε (StateM σ) β} {Q : β → β → σ → σ → Prop}
    (h : Alike (f s) (f' s') s s' Q) : Alike (get >>= f) (get >>= f') s s' Q :=
  Alike.bind (R := fun a a' t t' => a = t ∧ a' = t' ∧ t = s ∧ t' = s') ⟨rfl, rfl, rfl, rfl⟩ <| by
    rintro _ _ _ _ ⟨rfl, rfl, rfl, rfl⟩
    exact h

/-- A pure result is the same in both states. -/
theorem alike_mk_bind {r : Except ε α} {f f' : α → ExceptT ε (StateM σ) β}
    {Q : β → β → σ → σ → Prop} (h : ∀ a, r = .ok a → Alike (f a) (f' a) s s' Q) :
    Alike (ExceptT.mk (pure r) >>= f) (ExceptT.mk (pure r) >>= f') s s' Q := by
  cases r with
  | ok a => exact h a rfl
  | error e => exact alike_throw

/-- Steps that are alike both answer or both fail. -/
theorem Alike.cases (h : Alike m m' s s' R) :
    (∃ a t a' t', (m.run.run s : Except ε α × σ) = (.ok a, t)
      ∧ (m'.run.run s' : Except ε α × σ) = (.ok a', t') ∧ R a a' t t')
    ∨ ∃ e t t', (m.run.run s : Except ε α × σ) = (.error e, t)
      ∧ (m'.run.run s' : Except ε α × σ) = (.error e, t') := by
  rcases hm : (m.run.run s : Except ε α × σ) with ⟨e | a, t⟩ <;>
    rcases hm' : (m'.run.run s' : Except ε α × σ) with ⟨e' | a', t'⟩ <;>
    simp only [Alike, Ends, hm, hm', noFailure] at h
  · exact .inr ⟨e, t, t', rfl, by rw [h]⟩
  · exact .inl ⟨a, t, a', t', rfl, rfl, h⟩

end
end NovelScript
