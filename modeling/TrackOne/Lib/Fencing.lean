import Mathlib.Data.Int.Interval
import Mathlib.Data.List.Nodup

/-!
# Fencing tokens

A counter for each key hands out tokens: the key, with the value that its counter has reached. A
token has one holder at a time, who uses it once or lets it go. `Fenced` is what holds of the
counters, the holders and the tokens that were used, and there is one lemma for each thing that can
happen:

* `Fenced.mono`: counters go up, and holders let go.
* `Fenced.take`: a holder is handed the next token of a key.
* `Fenced.use`: a holder uses its token.

Keys and holders are of any type, and a step is given by what it does to each of them.
`Fenced.length_le` is what fencing is for: a key has at most as many used tokens as its counter
says. -/

variable {κ ι : Type}

/-- No token is handed out twice, and none is used twice. -/
structure Fenced (count : κ → Int) (held : ι → Option (κ × Int)) (used : List (κ × Int)) :
    Prop where
  nodup : used.Nodup
  apart : ∀ i j token, held i = some token → held j = some token → i = j
  unused : ∀ i token, held i = some token → token ∉ used
  used_le : ∀ token ∈ used, 0 < token.2 ∧ token.2 ≤ count token.1
  held_le : ∀ i token, held i = some token → 0 < token.2 ∧ token.2 ≤ count token.1

namespace Fenced

variable {count count' : κ → Int} {held held' : ι → Option (κ × Int)} {used : List (κ × Int)}

theorem nil (count : κ → Int) : Fenced count (fun _ : ι => none) [] where
  nodup := List.nodup_nil
  apart _ _ _ h := by cases h
  unused _ _ h := by cases h
  used_le _ h := by cases h
  held_le _ _ h := by cases h

/-- Counters go up, and holders let their tokens go. -/
theorem mono (h : Fenced count held used) (hcount : ∀ k, count k ≤ count' k)
    (hheld : ∀ i token, held' i = some token → held i = some token) : Fenced count' held' used where
  nodup := h.nodup
  apart i j token hi hj := h.apart i j token (hheld i token hi) (hheld j token hj)
  unused i token hi := h.unused i token (hheld i token hi)
  used_le token htoken := by
    obtain ⟨hpos, hle⟩ := h.used_le token htoken
    exact ⟨hpos, hle.trans (hcount _)⟩
  held_le i token hi := by
    obtain ⟨hpos, hle⟩ := h.held_le i token (hheld i token hi)
    exact ⟨hpos, hle.trans (hcount _)⟩

/-- A holder is handed the next token of a key, and lets go of the one that it had. -/
theorem take (h : Fenced count held used) {i : ι} {k : κ} (hcount : ∀ k, count k ≤ count' k)
    (hpos : 0 < count' k) (hnext : count k < count' k)
    (hheld : ∀ j token, held' j = some token →
      j = i ∧ token = (k, count' k) ∨ j ≠ i ∧ held j = some token) :
    Fenced count' held' used := by
  -- everything that was handed out before is below the new token
  have hold : ∀ token : κ × Int, token.2 ≤ count token.1 → token ≠ (k, count' k) := by
    rintro token hle rfl
    exact absurd hle (not_le.mpr hnext)
  refine ⟨h.nodup, ?_, ?_, ?_, ?_⟩
  · intro j j' token hj hj'
    rcases hheld j token hj with ⟨rfl, rfl⟩ | ⟨hne, hbefore⟩
    · rcases hheld j' _ hj' with ⟨rfl, -⟩ | ⟨-, hbefore'⟩
      · rfl
      · exact absurd rfl (hold _ (h.held_le j' _ hbefore').2)
    · rcases hheld j' token hj' with ⟨-, rfl⟩ | ⟨-, hbefore'⟩
      · exact absurd rfl (hold _ (h.held_le j _ hbefore).2)
      · exact h.apart j j' token hbefore hbefore'
  · intro j token hj hused
    rcases hheld j token hj with ⟨-, rfl⟩ | ⟨-, hbefore⟩
    · exact absurd rfl (hold _ (h.used_le _ hused).2)
    · exact h.unused j token hbefore hused
  · intro token hused
    obtain ⟨hpos', hle⟩ := h.used_le token hused
    exact ⟨hpos', hle.trans (hcount _)⟩
  · intro j token hj
    rcases hheld j token hj with ⟨-, rfl⟩ | ⟨-, hbefore⟩
    · exact ⟨hpos, le_refl _⟩
    · obtain ⟨hpos', hle⟩ := h.held_le j token hbefore
      exact ⟨hpos', hle.trans (hcount _)⟩

/-- A holder uses its token. -/
theorem use (h : Fenced count held used) {i : ι} {token : κ × Int} (hi : held i = some token)
    (hheld : ∀ j token', held' j = some token' → j ≠ i ∧ held j = some token') :
    Fenced count held' (used ++ [token]) where
  nodup := List.nodup_append.mpr ⟨h.nodup, List.nodup_singleton _,
    fun other hused last hlast heq => by
    rw [List.mem_singleton.mp hlast] at heq
    exact h.unused i token hi (heq ▸ hused)⟩
  apart j j' token' hj hj' := h.apart j j' token' (hheld j token' hj).2 (hheld j' token' hj').2
  unused j token' hj hused := by
    obtain ⟨hne, hbefore⟩ := hheld j token' hj
    rcases List.mem_append.mp hused with hold | hlast
    · exact h.unused j token' hbefore hold
    · rw [List.mem_singleton.mp hlast] at hbefore
      exact hne (h.apart j i token hbefore hi)
  used_le token' hused := by
    rcases List.mem_append.mp hused with hold | hlast
    · exact h.used_le token' hold
    · rw [List.mem_singleton.mp hlast]
      exact h.held_le i token hi
  held_le j token' hj := h.held_le j token' (hheld j token' hj).2

/-- A key has at most as many used tokens as its counter says. -/
theorem length_le [DecidableEq κ] (h : Fenced count held used) (k : κ) :
    ((used.filter fun token => token.1 = k).length : Int) ≤ max 0 (count k) := by
  have hnodup : ((used.filter fun token => token.1 = k).map Prod.snd).Nodup := by
    refine List.Nodup.map_on ?_ (h.nodup.filter _)
    intro token htoken token' htoken' heq
    have hkey := of_decide_eq_true (List.mem_filter.mp htoken).2
    have hkey' := of_decide_eq_true (List.mem_filter.mp htoken').2
    exact Prod.ext (hkey.trans hkey'.symm) heq
  have hsubset : ((used.filter fun token => token.1 = k).map Prod.snd).toFinset
      ⊆ Finset.Icc 1 (count k) := by
    intro generation hgeneration
    obtain ⟨token, htoken, rfl⟩ := List.mem_map.mp (List.mem_toFinset.mp hgeneration)
    obtain ⟨hused, hkey⟩ := List.mem_filter.mp htoken
    obtain ⟨hpos, hle⟩ := h.used_le token hused
    rw [of_decide_eq_true hkey] at hle
    exact Finset.mem_Icc.mpr ⟨hpos, hle⟩
  have hcard := Finset.card_le_card hsubset
  rw [List.toFinset_card_of_nodup hnodup, List.length_map, Int.card_Icc] at hcard
  omega

end Fenced
