import Mathlib.Data.List.Chain
import Tilde.Layout.Token

/-!
# The room that tokens take

Tokens that follow each other without a gap take the room of their parts (**`extent_append`**), and
a newline takes none.
-/

namespace Tilde.Token

/-- Every token begins where the one before it ends, none ends before it begins, and newlines take
no room. -/
structure Contiguous (tokens : List Token) : Prop where
  chain : tokens.IsChain fun t t' => t.stop = t'.start
  ordered : ∀ t ∈ tokens, t.start ≤ t.stop
  flat : ∀ t ∈ tokens, t.isNewline = true → t.stop = t.start

namespace Contiguous

variable {ts us : List Token} {t : Token}

theorem nil : Contiguous [] := ⟨.nil, by simp, by simp⟩

theorem left (h : Contiguous (ts ++ us)) : Contiguous ts where
  chain := h.chain.left_of_append
  ordered t ht := h.ordered t (List.mem_append_left _ ht)
  flat t ht := h.flat t (List.mem_append_left _ ht)

theorem right (h : Contiguous (ts ++ us)) : Contiguous us where
  chain := h.chain.right_of_append
  ordered t ht := h.ordered t (List.mem_append_right _ ht)
  flat t ht := h.flat t (List.mem_append_right _ ht)

theorem of_suffix (h : Contiguous ts) (hs : us <:+ ts) : Contiguous us := by
  obtain ⟨vs, rfl⟩ := hs
  exact h.right

theorem tail (h : Contiguous (t :: ts)) : Contiguous ts := h.of_suffix (List.suffix_cons t ts)

end Contiguous

variable {ts us : List Token} {t : Token}

@[simp] theorem extent_nil : extent [] = 0 := rfl

theorem extent_singleton (t : Token) : extent [t] = (t.stop : Int) - t.start := rfl

theorem extent_cons (h : Contiguous (t :: ts)) :
    extent (t :: ts) = ((t.stop : Int) - t.start) + extent ts := by
  cases ts with
  | nil => simp [extent_singleton]
  | cons u us =>
    have hmeet : t.stop = u.start := (List.isChain_cons_cons.mp h.chain).1
    simp only [extent, List.head?_cons, List.getLast?_cons, Option.getD_some]
    omega

/-- **Runs of tokens take the room of their parts.** -/
theorem extent_append (h : Contiguous (ts ++ us)) : extent (ts ++ us) = extent ts + extent us := by
  induction ts with
  | nil => simp
  | cons t ts ih =>
    rw [List.cons_append] at h ⊢
    rw [extent_cons h, ih h.tail, extent_cons h.left]
    omega

theorem extent_cons_newline (h : Contiguous (t :: ts)) (ht : t.isNewline = true) :
    extent (t :: ts) = extent ts := by
  have := h.flat t List.mem_cons_self ht
  rw [extent_cons h]
  omega

theorem extent_nonneg (h : Contiguous ts) : 0 ≤ extent ts := by
  induction ts with
  | nil => simp
  | cons t ts ih =>
    have := h.ordered t List.mem_cons_self
    have := ih h.tail
    rw [extent_cons h]
    omega

theorem extent_le_of_prefix (h : Contiguous (ts ++ us)) : extent ts ≤ extent (ts ++ us) := by
  have := extent_nonneg h.right
  rw [extent_append h]
  omega

end Tilde.Token
