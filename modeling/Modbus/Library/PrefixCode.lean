import Mathlib.InformationTheory.Coding.UniquelyDecodable
import Modbus.Library.Span

/-!
# Codes without prefixes

No word is the beginning of another one, so words that stand one after another can be told apart.

* `PrefixCode.uniquelyDecodable`: a string is made up of words in one way.
* `prefixCode_of_streams`: what a decoder takes whole is such a code.
* `prefixCode_of_tags`: so are several codes together, if the beginning of a word tells which one
  it belongs to.
-/

namespace Coding

open InformationTheory Span

variable {γ ε α ι : Type} {S : Set (List γ)}

/-- No word begins another one. -/
def PrefixCode (S : Set (List γ)) : Prop :=
  ∀ v t, v ∈ S → v ++ t ∈ S → t = []

/-- Words that begin the same string are the same. -/
theorem PrefixCode.append_inj (h : PrefixCode S) {v w t u : List γ} (hv : v ∈ S) (hw : w ∈ S)
    (heq : v ++ t = w ++ u) : v = w ∧ t = u := by
  rcases List.append_eq_append_iff.mp heq with ⟨r, rfl, hu⟩ | ⟨r, rfl, hu⟩
  · obtain rfl := h v r hv hw
    exact ⟨(List.append_nil v).symm, hu⟩
  · obtain rfl := h w r hw hv
    exact ⟨List.append_nil w, hu.symm⟩

/-- **Words can be told apart** in a string of them. -/
theorem PrefixCode.uniquelyDecodable (h : PrefixCode S) (hne : [] ∉ S) : UniquelyDecodable S := by
  intro words
  induction words with
  | nil =>
    intro words' _ hwords' heq
    cases words' with
    | nil => rfl
    | cons w words' =>
      obtain rfl := (List.append_eq_nil_iff.mp heq.symm).1
      exact absurd (hwords' _ List.mem_cons_self) hne
  | cons v words ih =>
    intro words' hwords hwords' heq
    cases words' with
    | nil =>
      obtain rfl := (List.append_eq_nil_iff.mp heq).1
      exact absurd (hwords _ List.mem_cons_self) hne
    | cons w words' =>
      obtain ⟨rfl, hrest⟩ := h.append_inj (hwords _ List.mem_cons_self)
        (hwords' _ List.mem_cons_self) heq
      rw [ih words' (fun u hu => hwords u (List.mem_cons_of_mem _ hu))
        (fun u hu => hwords' u (List.mem_cons_of_mem _ hu)) hrest]

def TakenWhole (x : EStateM ε (List γ) α) : Set (List γ) := {b | ∃ a, x.run b = .ok a []}

/-- **A decoder that only looks at what it takes.** -/
theorem prefixCode_of_streams {short : ε} {x : EStateM ε (List γ) α} (hx : Streams short x) :
    PrefixCode (TakenWhole x) := by
  rintro v t ⟨a, hv⟩ ⟨a', hvt⟩
  have hlonger := hx.ok hv t
  rw [hvt] at hlonger
  exact (EStateM.Result.ok.inj hlonger).2.symm

/-- **Several codes together.** -/
theorem prefixCode_of_tags {words : ι → Set (List γ)} (h : ∀ i, PrefixCode (words i))
    (htag : ∀ i j v t, v ∈ words i → v ++ t ∈ words j → i = j) :
    PrefixCode {v | ∃ i, v ∈ words i} := by
  rintro v t ⟨i, hi⟩ ⟨j, hj⟩
  obtain rfl := htag i j v t hi hj
  exact h i v t hi hj

end Coding
