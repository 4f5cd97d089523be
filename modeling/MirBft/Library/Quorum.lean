/-
**Quorums: sets of voters, some of them faulty.**

`exists_correct_mem_inter`: two sets of voters whose sizes add up to more than the number of voters
plus the number of faulty ones share a correct member. This is the intersection argument of every
quorum protocol with `n` voters and at most `f` faulty ones; it is used with both sizes equal to
`⌈(n + f + 1) / 2⌉`.
-/

import Mathlib.Data.Finset.Card

namespace MirBft.Quorum

variable {Voter : Type} [DecidableEq Voter]

/-- **Two quorums share a correct voter.** -/
theorem exists_correct_mem_inter {voters faulty first second : Finset Voter}
    (firstVotes : first ⊆ voters) (secondVotes : second ⊆ voters)
    (large : voters.card + faulty.card < first.card + second.card) :
    ∃ voter ∈ first, voter ∈ second ∧ voter ∉ faulty := by
  have both := Finset.card_union_add_card_inter first second
  have bounded := Finset.card_le_card (Finset.union_subset firstVotes secondVotes)
  obtain ⟨voter, shared, correct⟩ := Finset.exists_mem_notMem_of_card_lt_card
    (s := faulty) (t := first ∩ second) (by omega)
  rw [Finset.mem_inter] at shared
  exact ⟨voter, shared.1, shared.2, correct⟩

end MirBft.Quorum
