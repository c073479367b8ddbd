import PlaylistRules.Command.Run
import PlaylistRules.Proofs.Outcome

/-!
# The limit on the number of rules

A command counts the rules of a stored text before it checks any of them. A text with more rules
than the limit is refused for their number, whatever else is wrong with it or with the base entity.
The command does with every other text what compiling it without a limit does: it has the same query
or the same error.

## Main results

* `Command.refuse_bind` : steps that are refused one by one are refused as a whole.
* `Command.compileRules_of_parse_eq_ok` : the rules of a text are counted before they are checked.
* `Command.compileRules_agrees` : the outcomes of a command and of compiling.
-/

namespace PlaylistRules.Command

variable {α β : Type}

/-! ### Refusals -/

theorem refuse_bind (result : Except Rule.Error α) (f : α → Except Rule.Error β) :
    refuse (result >>= f) = refuse result >>= fun a => refuse (f a) := by
  cases result <;> rfl

theorem refuse_eq_ok_iff {result : Except Rule.Error α} {a : α} :
    refuse result = .ok a ↔ result = .ok a := by
  cases result with
  | error error => exact ⟨nofun, nofun⟩
  | ok b => exact ⟨fun h => congrArg _ (Except.ok.inj h), fun h => congrArg _ (Except.ok.inj h)⟩

theorem refuse_eq_error_iff {result : Except Rule.Error α} {failure : Failure} :
    refuse result = .error failure ↔ ∃ error, result = .error error ∧ failure = .refused error := by
  rw [refuse, Outcome.mapError_eq_error_iff]
  exact exists_congr fun error => and_congr_right fun _ => eq_comm

/-! ### Compiling up to a limit -/

variable {schema : Catalog.Schema} {entity : String} {now : Calendar.Instant} {user : Option Int64}
  {limit : UInt64} {text : String}

/-- A text that cannot be read has no rules to count. -/
theorem compileRules_of_parse_eq_error {fault : Json.Fault}
    (h : TreeRecord.parse text = .error fault) :
    compileRules schema entity now user limit text =
      refuse (Query.ofText schema entity now user text) := by
  rw [compileRules, Query.ofText, RuleTree.parse, RuleTree.readRecord, h]
  rfl

/-- The rules of a text are counted before they are checked. -/
theorem compileRules_of_parse_eq_ok {record : TreeRecord}
    (h : TreeRecord.parse text = .ok record) :
    compileRules schema entity now user limit text =
      if limit.toNat < record.ruleCount then .error (.tooManyRules record.ruleCount limit)
      else refuse (Query.ofText schema entity now user text) := by
  have hread : RuleTree.readRecord text = .ok record := by rw [RuleTree.readRecord, h]
  have hrefuse : refuse (Except.ok record : Except Rule.Error TreeRecord) = .ok record := rfl
  rw [compileRules, Query.ofText, RuleTree.parse, hread, hrefuse, Outcome.ok_bind,
    Outcome.ok_bind, refuse_bind]

/-- **A command agrees with compiling, up to the limit.** A text with more rules than the limit is
refused with their number, whatever is wrong with the rules or the base entity. Every other text,
also one that cannot be read, has the query that compiling it has, or the same error. -/
theorem compileRules_agrees (schema : Catalog.Schema) (entity : String) (now : Calendar.Instant)
    (user : Option Int64) (limit : UInt64) (text : String) :
    (∀ record, TreeRecord.parse text = .ok record → limit.toNat < record.ruleCount →
      compileRules schema entity now user limit text =
        .error (.tooManyRules record.ruleCount limit)) ∧
    ((∀ record, TreeRecord.parse text = .ok record → record.ruleCount ≤ limit.toNat) →
      (∀ query, compileRules schema entity now user limit text = .ok query ↔
        Query.ofText schema entity now user text = .ok query) ∧
      ∀ failure, compileRules schema entity now user limit text = .error failure ↔
        ∃ error, Query.ofText schema entity now user text = .error error ∧
          failure = .refused error) := by
  constructor
  · intro record hrecord hlimit
    rw [compileRules_of_parse_eq_ok hrecord, if_pos hlimit]
  · intro hlimit
    have hagrees : compileRules schema entity now user limit text =
        refuse (Query.ofText schema entity now user text) := by
      cases hrecord : TreeRecord.parse text with
      | error fault => exact compileRules_of_parse_eq_error hrecord
      | ok record =>
        rw [compileRules_of_parse_eq_ok hrecord, if_neg (Nat.not_lt.mpr (hlimit record hrecord))]
    rw [hagrees]
    exact ⟨fun query => refuse_eq_ok_iff, fun failure => refuse_eq_error_iff⟩

/-- Two rules with unknown operators on an unknown entity are refused for their number, and without
this limit for the first operator. -/
theorem compileRules_agrees_two_rules :
    let now : Calendar.Instant := .midnight ⟨2018, 7, 15, by decide, by decide, by decide⟩
    let text := "[[[[\"a\",\"b\"],[\"c\",\"d\"]]]]"
    compileRules Catalog.library "nothing" now none 1 text = .error (.tooManyRules 2 1) ∧
      compileRules Catalog.library "nothing" now none 2 text =
        .error (.refused ⟨.unknownOperator "b", some ⟨0, 0⟩⟩) := by
  intro now text
  have hcount : (TreeRecord.parse text).map TreeRecord.ruleCount = .ok 2 := by decide +kernel
  have hfirst : Query.ofText Catalog.library "nothing" now none text =
      .error ⟨.unknownOperator "b", some ⟨0, 0⟩⟩ := by decide +kernel
  obtain ⟨record, hparse, htwo⟩ := Outcome.map_eq_ok_iff.mp hcount
  have hbeyond : (1 : UInt64).toNat < record.ruleCount := htwo ▸ by decide
  have hwithin : ∀ other, TreeRecord.parse text = .ok other →
      other.ruleCount ≤ (2 : UInt64).toNat := by
    intro other hother
    obtain rfl := Except.ok.inj (hparse.symm.trans hother)
    exact Nat.le_of_eq htwo
  constructor
  · rw [← htwo]
    exact (compileRules_agrees Catalog.library "nothing" now none 1 text).1 record hparse hbeyond
  · exact (((compileRules_agrees Catalog.library "nothing" now none 2 text).2 hwithin).2 _).mpr
      ⟨_, hfirst, rfl⟩

end PlaylistRules.Command
