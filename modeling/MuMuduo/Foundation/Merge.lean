/-
# One sequence made of several

Several senders issue items, and the items come out of something that they share.  The
senders may overtake each other on the way.  What comes out is a merge of what they have
issued if the items of each sender that have come out are the ones it has issued first,
in its order (`Merge`).  With the items numbered as they are issued this takes two
things: that no item overtakes one of its own sender (`hahead`), and that none is left
behind (`hdown`).
-/

import Mathlib.Data.List.Basic
import Mathlib.Order.Lattice

namespace MuMuduo
namespace Foundation

variable {α ι : Type*}

/-- Of the items of each sender, the first ones have come out, in their order. -/
def Merge [DecidableEq ι] (sender : α → ι) (issued out : List α) : Prop :=
  ∀ t, out.filter (sender · = t) <+: issued.filter (sender · = t)

section Sorted

variable [LinearOrder α] {xs ys issued out : List α}

/-- The items of an increasing list that leave none behind come first in it. -/
theorem prefix_of_sorted (hx : xs.Pairwise (· < ·)) (hy : ys.Pairwise (· < ·))
    (hsub : ∀ x ∈ xs, x ∈ ys) (hdown : ∀ x ∈ xs, ∀ y ∈ ys, y < x → y ∈ xs) : xs <+: ys := by
  induction ys generalizing xs with
  | nil =>
      obtain rfl := List.eq_nil_iff_forall_not_mem.2 fun x hmem =>
        List.not_mem_nil (hsub x hmem)
      exact List.nil_prefix
  | cons y ys ih =>
      cases xs with
      | nil => exact List.nil_prefix
      | cons x xs =>
          obtain ⟨hxlt, hxs⟩ := List.pairwise_cons.1 hx
          obtain ⟨hylt, hys⟩ := List.pairwise_cons.1 hy
          -- the least item of each list is in the other
          have hxy : x = y := by
            rcases List.mem_cons.1 (hsub x List.mem_cons_self) with hxy | hmem
            · exact hxy
            · have hlt := hylt x hmem
              rcases List.mem_cons.1 (hdown x List.mem_cons_self y List.mem_cons_self hlt) with
                hyx | hmem
              · exact hyx.symm
              · exact absurd (hxlt y hmem) hlt.asymm
          subst hxy
          refine List.cons_prefix_cons.2
            ⟨rfl, ih hxs hys (fun z hz => ?_) fun z hz y hmem hlt => ?_⟩
          · exact (List.mem_cons.1 (hsub z (List.mem_cons_of_mem _ hz))).resolve_left
              (hxlt z hz).ne'
          · exact (List.mem_cons.1 (hdown z (List.mem_cons_of_mem _ hz) y
              (List.mem_cons_of_mem _ hmem) hlt)).resolve_left (hylt y hmem).ne'

/-- **Order and completeness make a merge.** -/
theorem Merge.of_sorted [DecidableEq ι] {sender : α → ι} (hissued : issued.Pairwise (· < ·))
    (hsub : ∀ x ∈ out, x ∈ issued)
    (hahead : out.Pairwise fun x y => sender x = sender y → x < y)
    (hdown : ∀ x ∈ out, ∀ y ∈ issued, sender y = sender x → y < x → y ∈ out) :
    Merge sender issued out := by
  intro t
  have hmem {x : α} {l : List α} : x ∈ l.filter (sender · = t) ↔ x ∈ l ∧ sender x = t := by
    rw [List.mem_filter, decide_eq_true_iff]
  refine prefix_of_sorted ?_ (hissued.filter _) (fun x hx => ?_) fun x hx y hy hlt => ?_
  · refine (hahead.filter _).imp_of_mem fun hx hy h => h ?_
    rw [(hmem.1 hx).2, (hmem.1 hy).2]
  · exact hmem.2 ⟨hsub x (hmem.1 hx).1, (hmem.1 hx).2⟩
  · obtain ⟨hx, hsx⟩ := hmem.1 hx
    obtain ⟨hy, hsy⟩ := hmem.1 hy
    exact hmem.2 ⟨hdown x hx y hy (hsy.trans hsx.symm) hlt, hsy⟩

end Sorted

end Foundation
end MuMuduo
