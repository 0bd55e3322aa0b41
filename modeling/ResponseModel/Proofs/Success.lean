import Mathlib.Data.List.Forall2
import ResponseModel.Trace

/-!
# Successful computations

When a computation that can fail gives a result: a sequence if its parts do, a traversal of a list
if it does so at every element.  These equivalences take a successful build apart into the steps
that it consists of.
-/

namespace ResponseModel

theorem exists_of_forall₂_of_mem {α β : Type} {R : α → β → Prop} {xs : List α} {ys : List β}
    (h : List.Forall₂ R xs ys) {y : β} (hy : y ∈ ys) : ∃ x ∈ xs, R x y := by
  induction h with
  | nil => exact absurd hy List.not_mem_nil
  | cons hhead _ ih =>
      rcases List.mem_cons.1 hy with rfl | hy
      · exact ⟨_, List.mem_cons_self, hhead⟩
      · obtain ⟨x, hx, hxy⟩ := ih hy
        exact ⟨x, List.mem_cons_of_mem _ hx, hxy⟩

theorem exists_forall₂_of_forall_mem {α β : Type} {R : α → β → Prop} {xs : List α}
    (h : ∀ x ∈ xs, ∃ y, R x y) : ∃ ys, List.Forall₂ R xs ys := by
  induction xs with
  | nil => exact ⟨[], .nil⟩
  | cons x rest ih =>
      obtain ⟨hhead, hrest⟩ := List.forall_mem_cons.1 h
      obtain ⟨y, hy⟩ := hhead
      obtain ⟨ys, hys⟩ := ih hrest
      exact ⟨y :: ys, .cons hy hys⟩

theorem forall₂_comp {α β γ : Type} {R : α → β → Prop} {S : β → γ → Prop} {T : α → γ → Prop}
    {xs : List α} {ys : List β} {zs : List γ} (h : List.Forall₂ R xs ys)
    (h' : List.Forall₂ S ys zs) (hcomp : ∀ x y z, R x y → S y z → T x z) :
    List.Forall₂ T xs zs := by
  induction h generalizing zs with
  | nil =>
      cases h'
      exact .nil
  | cons hxy _ ih =>
      cases h' with
      | cons hyz hrest => exact .cons (hcomp _ _ _ hxy hyz) (ih hrest)

theorem forall₂_imp_of_mem {α β : Type} {R S : α → β → Prop} {xs : List α} {ys : List β}
    (h : List.Forall₂ R xs ys) (himp : ∀ x ∈ xs, ∀ y, R x y → S x y) : List.Forall₂ S xs ys :=
  ((List.forall₂_and_left xs ys).2 ⟨himp, h⟩).imp fun _ y both => both.1 y both.2

theorem except_bind_eq_ok {ε α β : Type} {first : Except ε α} {next : α → Except ε β} {b : β} :
    (first >>= next) = .ok b ↔ ∃ a, first = .ok a ∧ next a = .ok b := by
  cases first with
  | error error => simp [bind, Except.bind]
  | ok a => simp [bind, Except.bind]

theorem except_bind_congr {ε α β : Type} {first : Except ε α} {next next' : α → Except ε β}
    (h : ∀ a, first = .ok a → next a = next' a) : first >>= next = first >>= next' := by
  cases first with
  | error error => rfl
  | ok a => exact h a rfl

theorem except_map_eq_ok {ε α β : Type} {first : Except ε α} {f : α → β} {b : β} :
    first.map f = .ok b ↔ ∃ a, first = .ok a ∧ f a = b := by
  cases first with
  | error error => simp [Except.map]
  | ok a => simp [Except.map]

theorem except_map_bind {ε α β γ : Type} (first : Except ε α) (next : α → Except ε β)
    (f : β → γ) : (first >>= next).map f = first >>= fun a => (next a).map f := by
  cases first <;> rfl

/-- Two lists one after the other, if both can be had. -/
theorem except_append_eq_ok {ε α : Type} {first others : Except ε (List α)} {result : List α} :
    (do let xs ← first; let ys ← others; .ok (xs ++ ys)) = .ok result ↔
      ∃ xs ys, first = .ok xs ∧ others = .ok ys ∧ result = xs ++ ys := by
  simp only [except_bind_eq_ok, Except.ok.injEq]
  constructor
  · rintro ⟨xs, hxs, ys, hys, rfl⟩
    exact ⟨xs, ys, hxs, hys, rfl⟩
  · rintro ⟨xs, ys, hxs, hys, rfl⟩
    exact ⟨xs, hxs, ys, hys, rfl⟩

/-- What is put together from the elements of a list can be put together from two parts of it. -/
theorem except_append_of_cons {ε α β : Type} {one : α → Except ε (List β)}
    (all : List α → Except ε (List β)) (hnil : all [] = .ok [])
    (hcons : ∀ x rest, all (x :: rest) = (do let xs ← one x; let ys ← all rest; .ok (xs ++ ys)))
    (first second : List α) :
    all (first ++ second) = (do let xs ← all first; let ys ← all second; .ok (xs ++ ys)) := by
  induction first with
  | nil =>
      rw [List.nil_append, hnil]
      cases all second <;> rfl
  | cons x rest ih =>
      rw [List.cons_append, hcons, hcons, ih]
      cases one x with
      | error error => rfl
      | ok own =>
          cases all rest with
          | error error => rfl
          | ok others =>
              cases all second with
              | error error => rfl
              | ok more => exact congrArg Except.ok (List.append_assoc own others more).symm

theorem except_eq_ok_get {ε α : Type} {result : Except ε α}
    (h : result.toOption.isSome = true) : result = .ok (result.toOption.get h) := by
  cases result with
  | error error => exact absurd h Bool.false_ne_true
  | ok a => rfl

theorem except_toOption_eq_some {ε α : Type} {result : Except ε α} {a : α} :
    result.toOption = some a ↔ result = .ok a := by
  cases result <;> simp [Except.toOption]

/-- A traversal gives the results of the elements. -/
theorem except_mapM_eq_ok {ε α β : Type} {f : α → Except ε β} {xs : List α} {ys : List β} :
    xs.mapM f = .ok ys ↔ List.Forall₂ (fun x y => f x = .ok y) xs ys := by
  induction xs generalizing ys with
  | nil => simp [pure, Except.pure, eq_comm]
  | cons x rest ih =>
      rw [List.mapM_cons, except_bind_eq_ok, List.forall₂_cons_left_iff]
      constructor
      · rintro ⟨y, hy, h⟩
        obtain ⟨ys', hys, h⟩ := except_bind_eq_ok.1 h
        exact ⟨y, ys', hy, ih.1 hys, (Except.ok.inj h).symm⟩
      · rintro ⟨y, ys', hy, hys, rfl⟩
        exact ⟨y, hy, except_bind_eq_ok.2 ⟨ys', ih.2 hys, rfl⟩⟩

namespace Traced

@[simp] theorem result_ok {α : Type} (a : α) : (ok a).result = .ok a := rfl

@[simp] theorem result_ofDocument {α : Type} {result : Except DocumentError α} {a : α} :
    (ofDocument result).result = .ok a ↔ result = .ok a := by
  cases result <;> simp [ofDocument, Except.mapError]

@[simp] theorem result_ofCoercion {α : Type} {result : Except CoercionError α} {a : α} :
    (ofCoercion result).result = .ok a ↔ result = .ok a := by
  cases result <;> simp [ofCoercion, Except.mapError]

/-- A traversal gives the results of the elements. -/
theorem result_each {α β : Type} {f : α → Traced β} {xs : List α} {ys : List β} :
    (each f xs).result = .ok ys ↔ List.Forall₂ (fun x y => (f x).result = .ok y) xs ys := by
  induction xs generalizing ys with
  | nil => simp [each, eq_comm]
  | cons x rest ih =>
      rw [each, result_bind_eq_ok, List.forall₂_cons_left_iff]
      constructor
      · rintro ⟨y, hy, h⟩
        obtain ⟨ys', hys, h⟩ := result_bind_eq_ok.1 h
        exact ⟨y, ys', hy, ih.1 hys, (Except.ok.inj h).symm⟩
      · rintro ⟨y, ys', hy, hys, rfl⟩
        exact ⟨y, hy, result_bind_eq_ok.2 ⟨ys', ih.2 hys, rfl⟩⟩

end Traced

end ResponseModel
