import Mathlib

/-!
# Lawful codecs

A serializer that is only known on some values can be completed to one that
is injective on a whole countable type, and then has a decoder.  Statements
that assume a round trip are instantiated with such a completion.
-/

namespace ForgeCore.Codec

open List

universe u

instance countableChar : Countable Char :=
  Function.Injective.countable (f := Char.toNat) fun _ _ same =>
    Char.toNat_inj.mp same

instance countableString : Countable String :=
  Function.Injective.countable (f := String.toList) fun _ _ same =>
    String.toList_inj.mp same

variable {value : Type u} [Countable value] [DecidableEq value]

/-- The listed encodings, and a marked number for every other value. -/
noncomputable def code (known : List (value × List UInt8)) (item : value) : List UInt8 :=
  match known.find? (fun pair => pair.1 = item) with
  | some pair => pair.2
  | none => 0 :: List.replicate (Classical.choose (exists_injective_nat value) item) 1

open Classical in
noncomputable def uncode (known : List (value × List UInt8)) (bytes : List UInt8) : Option value :=
  if encoded : ∃ item, code known item = bytes then some encoded.choose
  else none

/-- The listed encodings are distinct and do not carry the mark. -/
def Admissible (known : List (value × List UInt8)) : Prop :=
  (known.map Prod.snd).Nodup ∧ ∀ pair ∈ known, pair.2.head? ≠ some 0

variable {known : List (value × List UInt8)}

theorem code_injective (admissible : Admissible known) : Function.Injective (code known) := by
  obtain ⟨distinct, unmarked⟩ := admissible
  intro left right same
  unfold code at same
  cases leftFound : known.find? (fun pair => pair.1 = left) with
  | some leftPair =>
    have leftMember := mem_of_find?_eq_some leftFound
    have leftKey := find?_some leftFound
    cases rightFound : known.find? (fun pair => pair.1 = right) with
    | some rightPair =>
      have rightMember := mem_of_find?_eq_some rightFound
      have rightKey := find?_some rightFound
      simp only [leftFound, rightFound] at same
      have samePair : leftPair = rightPair :=
        inj_on_of_nodup_map distinct leftMember rightMember same
      subst samePair
      exact (of_decide_eq_true leftKey).symm.trans (of_decide_eq_true rightKey)
    | none =>
      simp only [leftFound, rightFound] at same
      exact absurd (by rw [same]; rfl) (unmarked leftPair leftMember)
  | none =>
    cases rightFound : known.find? (fun pair => pair.1 = right) with
    | some rightPair =>
      have rightMember := mem_of_find?_eq_some rightFound
      simp only [leftFound, rightFound] at same
      exact absurd (by rw [← same]; rfl) (unmarked rightPair rightMember)
    | none =>
      simp only [leftFound, rightFound, List.cons.injEq, true_and] at same
      have sameNumber := congrArg List.length same
      simp only [length_replicate] at sameNumber
      exact Classical.choose_spec (exists_injective_nat value) sameNumber

theorem uncode_code (admissible : Admissible known)
    (item : value) : uncode known (code known item) = some item := by
  have encoded : ∃ other, code known other = code known item := ⟨item, rfl⟩
  rw [uncode, dif_pos encoded]
  exact congrArg some (code_injective admissible encoded.choose_spec)

end ForgeCore.Codec
