import PlaylistRules.Proofs.Record.Reading

/-!
# The texts of rule records

The stored texts of rule records are exactly those of their format, and each is read to the tree
that it spells.

## Main results

* `TreeRecord.parse_eq_ok_iff` : the texts that are read, and the tree of each.
-/

namespace PlaylistRules

open Json Record

/-- **A text is read to a tree exactly when it spells the tree.** It is an array of groups with
nothing but blanks around it; a group is an object with its rules under one key at most, or an array
with its rules if it has any; a rule is an object with one model, one operator and at most one
value, or an array of these. Members of other keys only have to be grammatical. -/
theorem TreeRecord.parse_eq_ok_iff (text : String) (tree : TreeRecord) :
    TreeRecord.parse text = .ok tree ↔ SpellsTree text.toList tree := by
  have hgroups : ∀ body, Mapped TreeRecord.mk (Spaced (SpellsList SpellsGroup)) body tree ↔
      Spaced (SpellsList SpellsGroup) body tree.groups := by
    obtain ⟨groups⟩ := tree
    intro body
    simp only [Mapped, TreeRecord.mk.injEq, exists_eq_right]
  rw [TreeRecord.parse, readText_eq_ok_iff reads_readTree]
  simp only [hgroups]
  rfl

end PlaylistRules
