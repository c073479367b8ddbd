import PlaylistRules.Proofs.Catalog.Paths
import PlaylistRules.Proofs.Query.Compiled
import PlaylistRules.Proofs.Traversal

/-!
# Defects of rules

What is wrong with a rule, apart from how it is checked. A stored rule is invalid when no operator
has its name, or else when one of its values is no scalar, or else when the operator takes another
number of values. A rule that is valid cannot be compiled on a base entity when its path does not
resolve, or else when its operator cannot bind its values.

## Main definitions

* `RuleRecord.Invalid` : the reasons for which a stored rule is not taken.
* `Rule.Uncompiled` : the reasons for which a rule is not compiled on a base entity.

## Main results

* `Rule.ofRecord_eq_error_iff` : a stored rule is not taken exactly when it is invalid.
* `Rule.compile_eq_error_iff` : a rule is not compiled exactly when it has such a reason.
-/

namespace PlaylistRules

open Catalog (Schema Entity)

variable {error : Rule.Error} {reason : Rule.Reason}

/-! ### Operators and values -/

/-- A value that is neither an array nor an object. -/
def Json.IsScalar : Json → Prop
  | array _ | object _ => False
  | _ => True

theorem Scalar.ofJson_eq_error_iff {json : Json} :
    Scalar.ofJson json = .error error ↔
      ¬json.IsScalar ∧ error = .of (.notScalar json.compact) := by
  have hscalar : ∀ {value : Scalar}, Except.ok value = .error error ↔
      ¬True ∧ error = .of (.notScalar json.compact) := ⟨nofun, fun h => absurd trivial h.1⟩
  cases json with
  | null | bool | string => exact hscalar
  | number value =>
    cases value with
    | float => exact hscalar
    | integer value lower upper =>
      rw [Scalar.ofJson]
      split <;> exact hscalar
  | array | object =>
    exact ⟨fun h => ⟨id, (Except.error.inj h).symm⟩, fun h => congrArg _ h.2.symm⟩

namespace Rule

theorem Operator.mem_all (operator : Operator) : operator ∈ Operator.all := by
  cases operator <;> decide

theorem Operator.lookup_eq_ok_iff {name : String} {operator : Operator} :
    Operator.lookup name = .ok operator ↔ operator.name = name := by
  refine ⟨fun h => ?_, fun h => h ▸ Operator.lookup_name operator⟩
  unfold Operator.lookup at h
  split at h
  · next other hother =>
    cases h
    simpa using List.find?_some hother
  · cases h

theorem Operator.lookup_eq_error_iff {name : String} :
    Operator.lookup name = .error error ↔
      (∀ operator : Operator, operator.name ≠ name) ∧ error = .of (.unknownOperator name) := by
  unfold Operator.lookup
  split
  · next operator hoperator =>
    have hname : operator.name = name := by simpa using List.find?_some hoperator
    exact ⟨nofun, fun h => absurd hname (h.1 operator)⟩
  · next hnone =>
    refine ⟨fun h => ⟨fun operator hname => ?_, (Except.error.inj h).symm⟩,
      fun h => congrArg _ h.2.symm⟩
    exact List.find?_eq_none.mp hnone operator operator.mem_all (beq_iff_eq.mpr hname)

/-- The number of values is checked against the operator. -/
theorem of_eq_error_iff {field : String} {operator : Operator} {values : List Scalar} :
    Rule.of field operator values = .error error ↔
      values.length ≠ operator.arity ∧ error = operator.arityError values.length := by
  unfold Rule.of
  split
  · next h => exact ⟨nofun, fun hne => absurd h hne.1⟩
  · next h => exact ⟨fun h' => ⟨h, (Except.error.inj h').symm⟩, fun h' => congrArg _ h'.2.symm⟩

end Rule

/-! ### Validation -/

/-- The reason for which a stored rule is not taken. The name of the operator comes first, then the
values, of which the first one that is no scalar counts, then their number. -/
inductive RuleRecord.Invalid (record : RuleRecord) : Rule.Reason → Prop
  | unknownOperator : (∀ operator : Rule.Operator, operator.name ≠ record.operator) →
    Invalid record (.unknownOperator record.operator)
  | notScalar {operator : Rule.Operator} {place : Nat} {value : Json} :
    operator.name = record.operator → record.values[place]? = some value → ¬value.IsScalar →
    (∀ earlier < place, ∀ other ∈ record.values[earlier]?, other.IsScalar) →
      Invalid record (.notScalar value.compact)
  | invalidArity {operator : Rule.Operator} :
    operator.name = record.operator → (∀ value ∈ record.values, value.IsScalar) →
    record.values.length ≠ operator.arity →
      Invalid record (.invalidArity operator.name operator.arity record.values.length)

namespace Rule

theorem exists_ofJson_iff {json : Json} :
    (∃ value, Scalar.ofJson json = .ok value) ↔ json.IsScalar := by
  rw [Outcome.exists_ok_iff]
  constructor
  · intro h
    by_contra hscalar
    exact h _ (Scalar.ofJson_eq_error_iff.mpr ⟨hscalar, rfl⟩)
  · exact fun h e he => (Scalar.ofJson_eq_error_iff.mp he).1 h

/-- The values of a record are taken up to the first one that is no scalar. -/
theorem mapM_ofJson_eq_error_iff {values : List Json} :
    values.mapM Scalar.ofJson = .error error ↔
      ∃ (place : Nat) (value : Json), values[place]? = some value ∧ ¬value.IsScalar ∧
        (∀ earlier < place, ∀ other ∈ values[earlier]?, other.IsScalar) ∧
          error = .of (.notScalar value.compact) := by
  rw [Outcome.mapM_eq_each 0, Outcome.each_eq_error_iff]
  simp only [← Outcome.exists_ok_iff, exists_ofJson_iff, Scalar.ofJson_eq_error_iff]
  constructor
  · rintro ⟨place, ⟨value, hvalue, hscalar, rfl⟩, hearlier⟩
    exact ⟨place, value, hvalue, hscalar, hearlier, rfl⟩
  · rintro ⟨place, value, hvalue, hscalar, hearlier, rfl⟩
    exact ⟨place, ⟨value, hvalue, hscalar, rfl⟩, hearlier⟩

/-- The values of a record are taken when all are scalars, and their number stays. -/
theorem exists_mapM_ofJson_iff {values : List Json} :
    (∃ scalars, values.mapM Scalar.ofJson = .ok scalars ∧ scalars.length = values.length) ↔
      ∀ value ∈ values, value.IsScalar := by
  have hlength : ∀ scalars, values.mapM Scalar.ofJson = .ok scalars →
      scalars.length = values.length := fun scalars h =>
    Outcome.length_of_each ((Outcome.mapM_eq_each 0 values).symm.trans h)
  have hok : (∃ scalars, values.mapM Scalar.ofJson = .ok scalars) ↔
      ∀ value ∈ values, value.IsScalar := by
    rw [Outcome.mapM_eq_each 0, Outcome.each_eq_ok_iff]
    simp only [exists_ofJson_iff, Option.mem_def, List.mem_iff_getElem?]
    exact ⟨fun h value ⟨k, hk⟩ => h k value hk, fun h k value hk => h value ⟨k, hk⟩⟩
  rw [← hok]
  exact ⟨fun ⟨scalars, h, _⟩ => ⟨scalars, h⟩, fun ⟨scalars, h⟩ => ⟨scalars, h, hlength scalars h⟩⟩

/-- **A stored rule is not taken exactly when it is invalid**, and its error has no location. -/
theorem ofRecord_eq_error_iff {record : RuleRecord} :
    Rule.ofRecord record = .error error ↔ ∃ reason, error = .of reason ∧ record.Invalid reason := by
  simp only [Rule.ofRecord, Outcome.bind_eq_error_iff, Operator.lookup_eq_error_iff,
    Operator.lookup_eq_ok_iff, mapM_ofJson_eq_error_iff, of_eq_error_iff]
  constructor
  · rintro (⟨hname, rfl⟩ | ⟨operator, hname,
      ⟨place, value, hvalue, hscalar, hearlier, rfl⟩ | ⟨values, hvalues, hlength, rfl⟩⟩)
    · exact ⟨_, rfl, .unknownOperator hname⟩
    · exact ⟨_, rfl, .notScalar hname hvalue hscalar hearlier⟩
    · have hcount := Outcome.length_of_each ((Outcome.mapM_eq_each 0 _).symm.trans hvalues)
      rw [hcount] at hlength ⊢
      exact ⟨_, rfl, .invalidArity hname
        (exists_mapM_ofJson_iff.mp ⟨values, hvalues, hcount⟩) hlength⟩
  · rintro ⟨_, rfl, hname | ⟨hname, hvalue, hscalar, hearlier⟩ | ⟨hname, hscalars, hlength⟩⟩
    · exact .inl ⟨hname, rfl⟩
    · exact .inr ⟨_, hname, .inl ⟨_, _, hvalue, hscalar, hearlier, rfl⟩⟩
    · obtain ⟨values, hvalues, hcount⟩ := exists_mapM_ofJson_iff.mpr hscalars
      rw [← hcount] at hlength ⊢
      exact .inr ⟨_, hname, .inr ⟨values, hvalues, hlength, rfl⟩⟩

/-! ### Compilation -/

/-- The error has no location, and its cause is a value that is not usable. -/
def Error.IsOfValue (error : Error) : Prop :=
  ∃ reason, error = .of reason ∧ reason.kind = .invalidValue

namespace Operator

variable {operator : Operator} {now : Calendar.Instant} {value : Scalar} {values : List Scalar}

theorem isOfValue_of_pattern {before after : String}
    (h : operator.pattern before after value = .error error) : error.IsOfValue := by
  unfold pattern at h
  split at h
  · obtain rfl := Except.error.inj h
    exact ⟨_, rfl, rfl⟩
  · obtain rfl := Except.error.inj h
    exact ⟨_, rfl, rfl⟩
  · cases h

theorem isOfValue_of_dayCount (h : operator.dayCount value = .error error) : error.IsOfValue := by
  unfold dayCount at h
  split at h
  · split at h
    · cases h
    · obtain rfl := Except.error.inj h
      exact ⟨_, rfl, rfl⟩
  · obtain rfl := Except.error.inj h
    exact ⟨_, rfl, rfl⟩

theorem isOfValue_of_cutoff (h : operator.cutoff now value = .error error) : error.IsOfValue := by
  obtain h | ⟨days, -, h⟩ := Outcome.bind_eq_error_iff.mp h
  · exact isOfValue_of_dayCount h
  · split at h
    · cases h
    · obtain rfl := Except.error.inj h
      exact ⟨_, rfl, rfl⟩

/-- An operator that has as many values as it takes fails only because of them. -/
theorem isOfValue_of_coerce (hlength : values.length = operator.arity)
    (h : operator.coerce now values = .error error) : error.IsOfValue := by
  have hsingle : ∀ x : Except Error Scalar, (∀ e, x = .error e → e.IsOfValue) →
      (do return [← x]) = .error error → error.IsOfValue := by
    exact fun x hx herror => hx _ (Outcome.bind_pure_eq_error_iff.mp herror)
  unfold coerce at h
  split at h
  · cases h
  · next hpair =>
    obtain ⟨low, high, rfl⟩ := List.length_eq_two.mp hlength
    exact absurd rfl (hpair low high)
  · split at h
    case h_5 | h_6 => exact hsingle _ (fun _ => isOfValue_of_cutoff) h
    case h_7 => cases h
    all_goals exact hsingle _ (fun _ => isOfValue_of_pattern) h
  · next hbetween hone _ =>
    have harity : operator.arity = 1 := by
      cases operator
      case isBetween => exact (hbetween rfl).elim
      all_goals rfl
    rw [harity] at hlength
    obtain ⟨value, hvalue⟩ := List.length_eq_one_iff.mp hlength
    exact (hone value hvalue).elim

end Operator

/-- The reason for which a rule is not compiled on a base entity. Its path comes first, then the
values that its operator cannot bind. -/
inductive Uncompiled (schema : Schema) (entity : Entity) (now : Calendar.Instant) (rule : Rule) :
    Reason → Prop
  | unresolved {fault : Catalog.Fault} : schema.Unresolved entity rule.field fault →
    Uncompiled schema entity now rule (.unresolved fault)
  | unbound {field : Catalog.Field} {reason : Reason} :
    schema.resolve entity.name rule.field = .ok field →
    rule.operator.coerce now rule.values = .error (.of reason) → reason.kind = .invalidValue →
      Uncompiled schema entity now rule reason

/-- A rule is never refused on compiling for its operator or for the number of its values. -/
theorem Uncompiled.kind_mem {schema : Schema} {entity : Entity} {now : Calendar.Instant}
    {rule : Rule} (h : rule.Uncompiled schema entity now reason) :
    reason.kind ∈ [ErrorKind.unknownRelation, .unknownColumn, .unknownEntity, .invalidValue] := by
  obtain hfault | ⟨-, -, hkind⟩ := h
  · cases hfault <;> simp [Reason.kind]
  · simp [hkind]

section Compilation

variable {schema : Schema} {base : String} {entity : Entity} {now : Calendar.Instant}
  (hbase : schema.entity? base = some entity)

theorem resolve_eq_error_iff {path : String} :
    Rule.resolve schema base path = .error error ↔
      ∃ fault, schema.resolve base path = .error fault ∧ error = .of (.unresolved fault) := by
  unfold Rule.resolve
  split
  · next h => exact ⟨nofun, fun ⟨_, hfault, _⟩ => nomatch h.symm.trans hfault⟩
  · next fault h =>
    rw [h]
    constructor
    · exact fun herror => ⟨fault, rfl, (Except.error.inj herror).symm⟩
    · rintro ⟨fault', hfault, rfl⟩
      rw [Except.error.inj hfault]

include hbase

/-- **A rule is not compiled when its path does not resolve or its values cannot be bound**, and
its error has no location. -/
theorem compile_eq_error_iff {rule : Rule} :
    rule.compile schema base now = .error error ↔
      ∃ reason, error = .of reason ∧ rule.Uncompiled schema entity now reason := by
  have hname : schema.resolve base rule.field = schema.resolve entity.name rule.field := by
    rw [Schema.name_of_entity? hbase]
  rw [Rule.compile, Outcome.bind_eq_error_iff]
  simp only [Outcome.bind_pure_eq_error_iff, resolve_eq_error_iff,
    Schema.resolve_eq_error_iff hbase, resolve_eq_ok_iff]
  constructor
  · rintro (⟨fault, hfault, rfl⟩ | ⟨field, hfield, hcoerce⟩)
    · exact ⟨_, rfl, .unresolved hfault⟩
    · obtain ⟨reason, rfl, hkind⟩ := Operator.isOfValue_of_coerce rule.values_length hcoerce
      exact ⟨reason, rfl, .unbound (hname ▸ hfield) hcoerce hkind⟩
  · rintro ⟨_, rfl, hfault | ⟨hfield, hcoerce, -⟩⟩
    · exact .inl ⟨_, hfault, rfl⟩
    · exact .inr ⟨_, hname ▸ hfield, hcoerce⟩

end Compilation

end Rule

end PlaylistRules
