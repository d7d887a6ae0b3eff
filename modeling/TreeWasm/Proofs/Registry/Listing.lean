-- SUMMARY: The listing of a registry is one balanced expression whose margins follow its parentheses.
import TreeWasm.Proofs.Machine.Listing
import TreeWasm.Proofs.Registry.Log

/-!
# Listings of registries are nested

The listing of a registry is one group, which types and functions are nested in; a function is a
group of its own, with its body two levels in (`Registry.nested_inner`). So every parenthesis is
closed, the outermost one in the last line, and every margin follows from the parentheses in front
of it (`Registry.listing_nested`).
-/

namespace TreeWasm

open Wasm

theorem Wasm.ValType.lacks_listingName (t : ValType) : Lacks shaping t.listingName := by
  cases t with
  | ref type => exact (by decide : Lacks shaping "ref")
  | i32 | i64 | f32 | f64 | v128 => decide

theorem inside_valTypes (types : List ValType) :
    Inside (String.join (types.map (" " ++ ·.listingName))) := by
  refine .of_lacks (.join fun s hs => ?_)
  obtain ⟨t, -, rfl⟩ := List.mem_map.1 hs
  exact .append (by decide) t.lacks_listingName.of_shaping

theorem inside_typesClause {word : String} (hword : Lacks nesting word) (types : List ValType) :
    Inside (typesClause word types) := by
  unfold typesClause
  split
  · exact .of_lacks (by decide)
  · have hbody := Inside.append (.of_lacks hword) (inside_valTypes types)
    have htext : ∀ s : String, " (" ++ word ++ s ++ ")" = " " ++ ("(" ++ (word ++ s) ++ ")") := by
      simp [String.ext_iff]
    rw [htext]
    exact .append (.of_lacks (by decide)) hbody.parens

theorem Wasm.FuncType.inside_clauses (t : FuncType) : Inside t.clauses :=
  .append (inside_typesClause (by decide) t.params) (inside_typesClause (by decide) t.results)

namespace Registry

theorem nested_typeLine (index : Nat) (type : FuncType) : Nested 1 [typeLine index type] := by
  have hindex : Inside (";" ++ toString index ++ ";") :=
    .append (.append (.of_lacks (by decide)) (.of_lacks_shaping (lacks_natToString index)))
      (.of_lacks (by decide))
  have hfunc : Inside ("func" ++ type.clauses) :=
    .append (.of_lacks (by decide)) type.inside_clauses
  have hbody : Inside ("type " ++ ("(" ++ (";" ++ toString index ++ ";") ++ ")") ++ " " ++
      ("(" ++ ("func" ++ type.clauses) ++ ")")) :=
    .append (.append (.append (.of_lacks (by decide)) hindex.parens) (.of_lacks (by decide)))
      hfunc.parens
  exact .form (by simp [String.ext_iff]) hbody .nil

/-- The names that a registry shows have no character that a nested listing rules out. -/
def NamesFit (r : Registry) : Prop :=
  ∀ f ∈ r.functions.toList, Lacks nesting f.name ∧ ∀ l ∈ f.body.labels, Lacks nesting l

theorem nested_locals (locals : List ValType) :
    Nested 2 (if locals.isEmpty then []
      else [⟨2, "(local" ++ String.join (locals.map (" " ++ ·.listingName)) ++ ")"⟩]) := by
  split
  · exact .nil
  · have hbody : Inside ("local" ++ String.join (locals.map (" " ++ ·.listingName))) :=
      .append (.of_lacks (by decide)) (inside_valTypes locals)
    exact .form (by simp [String.ext_iff]) hbody .nil

theorem nested_functionLines (r : Registry) {f : Registered} (hname : Lacks nesting f.name)
    (hlabels : ∀ l ∈ f.body.labels, Lacks nesting l) : Nested 1 (r.functionLines f) := by
  have hclauses : Inside (((r.type? f.typeIndex).map (·.clauses)).getD "") := by
    cases r.type? f.typeIndex with
    | none => exact .of_lacks (by decide)
    | some type => exact type.inside_clauses
  have hhead : Inside ("func $" ++ f.name ++ ((r.type? f.typeIndex).map (·.clauses)).getD "") :=
    .append (.append (.of_lacks (by decide)) (.of_lacks hname)) hclauses
  exact .group (by simp [String.ext_iff]) hhead
    ((nested_locals f.locals).append (f.body.nested_lines 2 hlabels)) .nil

/-- The lines between the first and the last one. -/
def innerLines (r : Registry) : List Line :=
  r.types.toList.mapIdx typeLine ++ r.functions.toList.flatMap r.functionLines

theorem nested_flatten {n : Nat} {parts : List (List Line)} (h : ∀ part ∈ parts, Nested n part) :
    Nested n parts.flatten := by
  induction parts with
  | nil => exact .nil
  | cons part parts ih =>
    rw [List.flatten_cons]
    exact (h part List.mem_cons_self).append (ih fun p hp => h p (List.mem_cons_of_mem _ hp))

theorem nested_inner {r : Registry} (h : r.NamesFit) : Nested 1 r.innerLines := by
  have htypes : r.types.toList.mapIdx typeLine =
      (r.types.toList.mapIdx fun index type => [typeLine index type]).flatten := by
    rw [List.mapIdx_eq_zipIdx_map, List.mapIdx_eq_zipIdx_map, ← List.flatMap_def]
    exact List.map_eq_flatMap
  unfold innerLines
  rw [htypes]
  refine .append (nested_flatten fun part hpart => ?_) (nested_flatten fun part hpart => ?_)
  · obtain ⟨index, hlt, rfl⟩ := List.mem_mapIdx.1 hpart
    exact nested_typeLine index _
  · obtain ⟨f, hf, rfl⟩ := List.mem_map.1 hpart
    exact r.nested_functionLines (h f hf).1 (h f hf).2

/-- The listing of a registry is one group. -/
theorem lines_eq (r : Registry) : r.lines = ⟨0, "(module"⟩ :: (r.innerLines ++ [⟨0, ")"⟩]) := rfl

theorem inside_module : Inside "module" := .of_lacks (by decide)

/-- If no function name and no label has a parenthesis or a line feed, then every parenthesis in the
listing of a registry is closed, and the first one is open up to the last line, which consists of
the parenthesis that closes it. Every line has two spaces for each parenthesis that is open in front
of it, or for each but one if it begins with closing one, and then a parenthesis. A node whose
labels have no such characters is listed at a deeper level with as many more spaces in front of each
of its lines. -/
theorem listing_nested (r : Registry) (h : r.NamesFit) :
    (∃ front, r.listing.toList = front ++ [')', '\n'] ∧ depth (front ++ [')', '\n']) = 0 ∧
      ∀ p q, p ++ q = front → p ≠ [] → 0 < depth p) ∧
    (∀ before line after, splitLines r.listing.toList = before ++ line :: after →
      FollowsDepth line (depth before.flatten)) ∧
    ∀ (node : Node) (n k : Nat), (∀ l ∈ node.labels, Lacks nesting l) →
      (node.listing (n + k)).toList =
        joinLines ((splitLines (node.listing n).toList).map (List.replicate (2 * k) ' ' ++ ·)) := by
  have hopen : "(module" = "(" ++ "module" := rfl
  unfold listing
  rw [lines_eq]
  refine ⟨Nested.depth_group hopen inside_module (nested_inner h), ?_, ?_⟩
  · have hnested : Nested 0 (⟨0, "(module"⟩ :: (r.innerLines ++ [⟨0, ")"⟩])) :=
      .group hopen inside_module (nested_inner h) .nil
    intro before line after hsplit
    have hfollows := hnested.followsDepth hsplit
    rwa [Int.natCast_zero, Int.zero_add] at hfollows
  · intro node n k hlabels
    exact Node.listing_add n k hlabels

/-- A registry with a function that has slots, and a branch out of an if in a block. -/
def branching : Registry :=
  ({} : Registry).register ⟨"main", ⟨[.i32], [.i32]⟩, [.f64],
    .block "exit" .word32
      [.ifThen .unreachable (.localGet 0 .word32) (.breakWith "exit" 1 (.constI32 (-1))),
        .constI32 2]⟩

/-- The parentheses of the block, the if and its arm are all closed where the margins say. -/
theorem branching_nested :
    (∃ front, branching.listing.toList = front ++ [')', '\n'] ∧
      ∀ p q, p ++ q = front → p ≠ [] → 0 < depth p) ∧
    ∀ before line after, splitLines branching.listing.toList = before ++ line :: after →
      FollowsDepth line (depth before.flatten) := by
  have hnames : branching.NamesFit := by
    intro f hf
    unfold branching at hf
    rw [functions_register] at hf
    obtain rfl := List.mem_singleton.1 hf
    exact ⟨by decide, by decide⟩
  obtain ⟨⟨front, hfront, -, hopen⟩, hfollows, -⟩ := listing_nested branching hnames
  exact ⟨⟨front, hfront, hopen⟩, hfollows⟩

end Registry

end TreeWasm
