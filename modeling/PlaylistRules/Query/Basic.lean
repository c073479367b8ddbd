import PlaylistRules.Query.Predicate
import PlaylistRules.Rule.Tree

/-!
# Queries

A query selects the rows of a base table that satisfy a predicate, given as text with a
placeholder for each of its bound values.

## Main definitions

* `Query` : a base table, the text of a predicate, and bound values.
* `Query.sql` : the statement of a query.
* `Query.placeholderCount` : the number of question marks in the predicate.
* `Query.interchange` : the JSON form of a query.
-/

namespace PlaylistRules

/-- A base table, the text of a predicate, and the values for its placeholders in order. -/
structure Query where
  baseTable : String
  predicate : String
  bindings : List Scalar
deriving DecidableEq

namespace Query

/-- The query of a predicate. -/
def ofPredicate (baseTable : String) (predicate : Predicate) (bindings : List Scalar) : Query :=
  ⟨baseTable, predicate.text, bindings⟩

/-- The query that selects no row. -/
def never (baseTable : String) : Query :=
  ofPredicate baseTable .never []

/-- The predicate is the one that no row satisfies. -/
def isNever (query : Query) : Bool :=
  query.predicate == neverText

/-- The number of question marks in the text of the predicate. -/
def placeholderCount (query : Query) : Nat :=
  query.predicate.toList.count '?'

/-- The statement that selects the rows. -/
def sql (query : Query) : String :=
  "select * from " ++ Text.quoteName query.baseTable ++ " where " ++ query.predicate

/-- The JSON form of a query, with the members in this order. -/
def interchange (query : Query) : String :=
  String.ofList ('\x7b' :: (Json.writeString "base_table" ++ ':' ::
    Json.writeString query.baseTable ++ ',' :: Json.writeString "predicate" ++ ':' ::
    Json.writeString query.predicate ++ ',' :: Json.writeString "bindings" ++ ':' ::
    (Json.array (query.bindings.map Scalar.interchange)).write ++ ['\x7d']))

end Query

end PlaylistRules
