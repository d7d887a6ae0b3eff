-- SUMMARY: Every branch in the code of a tree reaches the block that its break names.
import TreeWasm.Proofs.Lowering.Postorder
import TreeWasm.Proofs.Machine.Brackets
import TreeWasm.Proofs.Tree.Address

/-!
# Targets of branches

A break names the block it leaves, and a branch counts the frames between itself and where it goes.
Lowering counts the frames it has open, but what a branch reaches is decided by how the flat code is
bracketed. To see that the two agree, operators are kept together with the address of the
instruction that they are written for (`Instruction.placed`). A scan of the code then tells which
openers are open in front of an operator (`Placed.openAfter`), and by their addresses which blocks
and ifs these belong to.
-/

namespace TreeWasm

open Wasm Wasm.Execution

/-! ## Placed operators -/

/-- An operator, with the address of the instruction that it is written for. -/
structure Placed where
  origin : Address
  operator : Operator

namespace Placed

/-- The openers that are open behind an operator, innermost first, given those in front of it. -/
def openAfterOne (outer : List Placed) (x : Placed) : List Placed :=
  match x.operator with
  | .block _ | .cond _ => x :: outer
  | .finish => outer.tail
  | _ => outer

/-- The openers that are open behind code, innermost first, given those in front of it. -/
def openAfter (outer code : List Placed) : List Placed := code.foldl openAfterOne outer

@[simp] theorem openAfter_nil (outer : List Placed) : openAfter outer [] = outer := rfl

@[simp] theorem openAfter_cons (outer : List Placed) (x : Placed) (code : List Placed) :
    openAfter outer (x :: code) = openAfter (openAfterOne outer x) code := rfl

@[simp] theorem openAfter_append (outer code code' : List Placed) :
    openAfter outer (code ++ code') = openAfter (openAfter outer code) code' :=
  List.foldl_append

/-- Bracketed code closes what it opens, and nothing else. -/
theorem openAfter_of_bracketed {ops : List Operator} (h : Bracketed ops) {code : List Placed}
    (hcode : code.map operator = ops) (outer : List Placed) : openAfter outer code = outer := by
  induction h generalizing code outer with
  | nil =>
    simp only [List.map_eq_nil_iff] at hcode
    simp [hcode]
  | @flat op hop =>
    obtain ⟨x, rfl, rfl⟩ := List.map_eq_singleton_iff.1 hcode
    simp only [openAfter_cons, openAfter_nil, openAfterOne]
    revert hop
    cases x.operator <;> simp [isFlat]
  | append _ _ ih ih' =>
    obtain ⟨xs, ys, rfl, hxs, hys⟩ := List.map_eq_append_iff.1 hcode
    simp [ih hxs, ih' hys]
  | block result _ ih =>
    obtain ⟨x, xs, rfl, hx, hxs⟩ := List.map_eq_cons_iff.1 hcode
    obtain ⟨ys, zs, rfl, hys, hzs⟩ := List.map_eq_append_iff.1 hxs
    obtain ⟨z, rfl, hz⟩ := List.map_eq_singleton_iff.1 hzs
    simp [ih hys, openAfterOne, hx, hz]
  | ifThen result _ ih =>
    obtain ⟨x, xs, rfl, hx, hxs⟩ := List.map_eq_cons_iff.1 hcode
    obtain ⟨ys, zs, rfl, hys, hzs⟩ := List.map_eq_append_iff.1 hxs
    obtain ⟨z, rfl, hz⟩ := List.map_eq_singleton_iff.1 hzs
    simp [ih hys, openAfterOne, hx, hz]
  | ifElse result _ _ ih ih' =>
    obtain ⟨x, xs, rfl, hx, hxs⟩ := List.map_eq_cons_iff.1 hcode
    obtain ⟨ts, as, rfl, hts, has⟩ := List.map_eq_append_iff.1 hxs
    obtain ⟨a, es, rfl, ha, hes⟩ := List.map_eq_cons_iff.1 has
    obtain ⟨ys, zs, rfl, hys, hzs⟩ := List.map_eq_append_iff.1 hes
    obtain ⟨z, rfl, hz⟩ := List.map_eq_singleton_iff.1 hzs
    simp [ih hts, ih' hys, openAfterOne, hx, ha, hz]

end Placed

namespace Instruction

mutual

/-- The addresses of the instructions that the operators of an instruction are written for, in the
order of the operators (`Instruction.reading`). The instruction itself stands at the given
address. -/
def origins (here : Address) : Instruction → List Address
  | .constInt32 _ | .constFloat64 _ | .constBool _ | .localGet .. | .breakTo _ => [here]
  | .block _ _ children => here :: (originsAll here 0 children ++ [here])
  | .binaryOp _ _ lhs rhs => origins (.lhs :: here) lhs ++ (origins (.rhs :: here) rhs ++ [here])
  | .breakWith _ value => origins (.value :: here) value ++ [here]
  | .ifThen condition thenBody =>
    origins (.condition :: here) condition ++ here :: (origins (.thenBody :: here) thenBody ++
      ((if thenBody.machineType = .unreachable then [] else [here]) ++ [here]))
  | .ifElse condition thenBody elseBody =>
    origins (.condition :: here) condition ++ here :: (origins (.thenBody :: here) thenBody ++
      here :: (origins (.elseBody :: here) elseBody ++ [here]))
  | .storeLocal .. | .propertyAccess .. | .propertyAssignment .. | .containerAlloc _
  | .stackAlloc _ | .stackFree _ => []

/-- The same for the children of a block, from the child with the given index on. -/
def originsAll (here : Address) : Nat → List Instruction → List Address
  | _, [] => []
  | index, i :: is => origins (.child index :: here) i ++ originsAll here (index + 1) is

end

/-- The operators of the node of a tree, each with the address of the instruction that it is written
for. -/
def placed (i : Instruction) (n : Node) : List Placed :=
  List.zipWith Placed.mk (i.origins []) n.operators

/-! ## Aim -/

/-- If the operator is a branch, then it is written for a break, the openers that are open in front
of it belong to the instructions in whose frames the break lies, and the one that it reaches is that
of the innermost block with the label around the break. -/
def Hits (root : Instruction) (x : Placed) (outer : List Placed) : Prop :=
  ∀ depth, x.operator = .branch depth → ∃ label target result,
    (root.at? x.origin).bind breakLabel? = some label ∧
    outer.map Placed.origin = x.origin.frames ∧
    root.blockAround? label x.origin = some target ∧
    outer[depth]? = some ⟨target, .block result⟩

/-- All branches of code hit, if the given openers are open in front of the code. -/
def AllHit (root : Instruction) : List Placed → List Placed → Prop
  | _, [] => True
  | outer, x :: code => root.Hits x outer ∧ root.AllHit (Placed.openAfterOne outer x) code

section

variable {root : Instruction}

theorem allHit_append {outer code code' : List Placed} :
    root.AllHit outer (code ++ code') ↔
      root.AllHit outer code ∧ root.AllHit (Placed.openAfter outer code) code' := by
  induction code generalizing outer with
  | nil => simp [AllHit]
  | cons x code ih => simp [AllHit, ih, and_assoc]

end

/-! ## Surroundings -/

/-- The frames that lowering has open at an address and the openers that are open in code there
belong together: they are those of the same blocks and ifs, and a label leads through as many frames
as openers. -/
structure Surrounded (root : Instruction) (here : Address) (frames : FrameStack)
    (outer : List Placed) : Prop where
  origins : outer.map Placed.origin = here.frames
  resolves {label : String} {depth : Nat} : frames.distance label = .ok depth →
    ∃ target result, root.blockAround? label here = some target ∧
      outer[depth]? = some ⟨target, .block result⟩

namespace Surrounded

variable {root i : Instruction} {here : Address} {frames : FrameStack} {outer : List Placed}

theorem nil (i : Instruction) : Surrounded i [] {} [] where
  origins := rfl
  resolves h := by cases h

/-- An operand, a value of a break and a condition have the surroundings of their instruction. -/
theorem operand (h : Surrounded root here frames outer) (hi : root.at? here = some i)
    (hlabel : i.blockLabel? = none) {part : Part} (hpart : part.isFramed = false) :
    Surrounded root (part :: here) frames outer where
  origins := by simp [Address.frames, hpart, h.origins]
  resolves {label depth} hd := by simpa [blockAround?_part hi, hlabel] using h.resolves hd

/-- A child of a block lies in the frame of the block besides. -/
theorem child (h : Surrounded root here frames outer) {label : String} {type : ValueType}
    {children : List Instruction} (hi : root.at? here = some (.block label type children))
    (index : Nat) (result : Option ValType) :
    Surrounded root (.child index :: here) (frames.enter (.block label))
      (⟨here, .block result⟩ :: outer) where
  origins := by simp [Address.frames, Part.isFramed, h.origins]
  resolves {label' depth} hd := by
    by_cases hl : label = label'
    · subst hl
      rw [FrameStack.distance_enter_self] at hd
      cases hd
      exact ⟨here, result, by simp [blockAround?_part hi, blockLabel?], rfl⟩
    · have hkind : Frame.Kind.block label ≠ .block label' := by simpa using hl
      obtain ⟨d, hd', rfl⟩ := (FrameStack.distance_enter_iff hkind frames depth).1 hd
      simpa [blockAround?_part hi, blockLabel?, hl] using h.resolves hd'

/-- A body of an if lies in the frame of the if besides, where no label leads to. -/
theorem body (h : Surrounded root here frames outer) (hi : root.at? here = some i)
    (hlabel : i.blockLabel? = none) {part : Part} (hpart : part.isFramed = true)
    (result : Option ValType) :
    Surrounded root (part :: here) (frames.enter .cond) (⟨here, .cond result⟩ :: outer) where
  origins := by simp [Address.frames, hpart, h.origins]
  resolves {label depth} hd := by
    have hkind : Frame.Kind.cond ≠ .block label := nofun
    obtain ⟨d, hd', rfl⟩ := (FrameStack.distance_enter_iff hkind frames depth).1 hd
    simpa [blockAround?_part hi, hlabel] using h.resolves hd'

end Surrounded

/-! ## Code of a tree -/

/-- Placed code: these are the operators, they are written for the instructions at these addresses,
and all branches hit if the given openers are open in front. -/
structure Placement (root : Instruction) (outer : List Placed) (ops : List Operator)
    (origins : List Address) (code : List Placed) : Prop where
  operators : code.map Placed.operator = ops
  origins : code.map Placed.origin = origins
  hits : root.AllHit outer code

namespace Placement

variable {root : Instruction} {outer : List Placed} {ops ops' : List Operator}
  {places places' : List Address} {code code' : List Placed}

theorem nil : Placement root outer [] [] [] := ⟨rfl, rfl, trivial⟩

theorem append (h : Placement root outer ops places code) (hb : Bracketed ops)
    (h' : Placement root outer ops' places' code') :
    Placement root outer (ops ++ ops') (places ++ places') (code ++ code') where
  operators := by rw [List.map_append, h.operators, h'.operators]
  origins := by rw [List.map_append, h.origins, h'.origins]
  hits := by
    rw [allHit_append, Placed.openAfter_of_bracketed hb h.operators]
    exact ⟨h.hits, h'.hits⟩

/-- An operator other than a branch in front of code. -/
theorem cons {here : Address} {op : Operator} (hop : ∀ depth, op ≠ .branch depth)
    (h : Placement root (Placed.openAfterOne outer ⟨here, op⟩) ops places code) :
    Placement root outer (op :: ops) (here :: places) (⟨here, op⟩ :: code) where
  operators := by rw [List.map_cons, h.operators]
  origins := by rw [List.map_cons, h.origins]
  hits := ⟨fun depth hx => absurd hx (hop depth), h.hits⟩

/-- A branch of a break hits. -/
theorem branch {here : Address} {i : Instruction} {frames : FrameStack}
    (hs : Surrounded root here frames outer) (hi : root.at? here = some i) {label : String}
    (hlabel : i.breakLabel? = some label) {depth : Nat} (hd : frames.distance label = .ok depth) :
    Placement root outer [.branch depth] [here] [⟨here, .branch depth⟩] where
  operators := rfl
  origins := rfl
  hits := by
    refine ⟨fun depth' hx => ?_, trivial⟩
    cases hx
    obtain ⟨target, result, ht, ho⟩ := hs.resolves hd
    exact ⟨label, target, result, by simp [hi, hlabel], hs.origins, ht, ho⟩

end Placement

/-- The body of an if may be followed by a drop, and is then closed. -/
theorem exists_placement_drop (root : Instruction) (here : Address) (outer : List Placed) (p : Prop)
    [Decidable p] : ∃ code, Placement root outer ((if p then [] else [.drop]) ++ [.finish])
      ((if p then [] else [here]) ++ [here]) code := by
  split
  · exact ⟨_, .cons nofun .nil⟩
  · exact ⟨_, .cons nofun (.cons nofun .nil)⟩

mutual

/-- The code of an instruction can be placed so that all branches hit, wherever in a tree the
instruction stands. -/
theorem exists_placement (i : Instruction) {root : Instruction} {here : Address}
    {frames : FrameStack} {outer : List Placed} {n : Node}
    (hs : Surrounded root here frames outer) (hi : root.at? here = some i)
    (h : i.lowerIn frames = .ok n) :
    ∃ code, Placement root outer n.operators (i.origins here) code := by
  cases i with
  | constInt32 | constFloat64 | constBool =>
    cases h
    exact ⟨_, .cons nofun .nil⟩
  | localGet =>
    obtain ⟨m, -, rfl⟩ := lowerIn_localGet_iff.1 h
    exact ⟨_, .cons nofun .nil⟩
  | block label type children =>
    obtain ⟨m, -, ns, hns, rfl⟩ := lowerIn_block_iff.1 h
    rw [Node.operators_block, origins]
    -- The children stand behind the opener of the block, which is their innermost frame.
    obtain ⟨code, hcode⟩ := exists_placementAll children 0 (hs.child hi · m.valType?)
      (fun index => by simp [at?_part hi, part?]) hns
    exact ⟨_, .cons nofun (hcode.append (Node.bracketed_operatorsAll ns) (.cons nofun .nil))⟩
  | binaryOp op type lhs rhs =>
    obtain ⟨l, hl, r, hr, m, -, rfl⟩ := lowerIn_binaryOp_iff.1 h
    rw [Node.operators_binary, origins]
    obtain ⟨lcode, hlcode⟩ := exists_placement lhs (hs.operand hi rfl rfl) (at?_part hi .lhs) hl
    obtain ⟨rcode, hrcode⟩ := exists_placement rhs (hs.operand hi rfl rfl) (at?_part hi .rhs) hr
    exact ⟨_, hlcode.append l.bracketed_operators
      (hrcode.append r.bracketed_operators (.cons nofun .nil))⟩
  | breakTo label =>
    obtain ⟨d, hd, rfl⟩ := lowerIn_breakTo_iff.1 h
    exact ⟨_, .branch hs hi rfl hd⟩
  | breakWith label value =>
    obtain ⟨v, hv, d, hd, rfl⟩ := lowerIn_breakWith_iff.1 h
    rw [Node.operators_breakWith, origins]
    obtain ⟨code, hcode⟩ := exists_placement value (hs.operand hi rfl rfl) (at?_part hi .value) hv
    exact ⟨_, hcode.append v.bracketed_operators (.branch hs hi rfl hd)⟩
  | ifThen condition thenBody =>
    obtain ⟨c, hc, -, t, ht, rfl⟩ := lowerIn_ifThen_iff.1 h
    rw [Node.operators_ifThen, origins, Lowering.operators_discard, thenBody.type_of_lowerIn ht]
    -- The condition stands in front of the opener, the body behind it.
    obtain ⟨ccode, hccode⟩ :=
      exists_placement condition (hs.operand hi rfl rfl) (at?_part hi .condition) hc
    obtain ⟨tcode, htcode⟩ :=
      exists_placement thenBody (hs.body hi rfl rfl none) (at?_part hi .thenBody) ht
    obtain ⟨ecode, hecode⟩ := exists_placement_drop root here (⟨here, .cond none⟩ :: outer)
      (thenBody.machineType = .unreachable)
    rw [List.append_assoc]
    exact ⟨_, hccode.append c.bracketed_operators (.cons nofun
      (htcode.append t.bracketed_operators hecode))⟩
  | ifElse condition thenBody elseBody =>
    obtain ⟨c, hc, -, t, ht, e, he, rfl⟩ := lowerIn_ifElse_iff.1 h
    rw [Node.operators_ifElse, origins]
    obtain ⟨ccode, hccode⟩ :=
      exists_placement condition (hs.operand hi rfl rfl) (at?_part hi .condition) hc
    obtain ⟨tcode, htcode⟩ :=
      exists_placement thenBody (hs.body hi rfl rfl _) (at?_part hi .thenBody) ht
    obtain ⟨ecode, hecode⟩ :=
      exists_placement elseBody (hs.body hi rfl rfl _) (at?_part hi .elseBody) he
    exact ⟨_, hccode.append c.bracketed_operators (.cons nofun
      (htcode.append t.bracketed_operators (.cons nofun
        (hecode.append e.bracketed_operators (.cons nofun .nil)))))⟩
  | storeLocal | propertyAccess | propertyAssignment | containerAlloc | stackAlloc | stackFree =>
    cases h

theorem exists_placementAll (is : List Instruction) {root : Instruction} {here : Address}
    {frames : FrameStack} {outer : List Placed} {ns : List Node} (index : Nat)
    (hs : ∀ index, Surrounded root (.child index :: here) frames outer)
    (his : ∀ offset, root.at? (.child (index + offset) :: here) = is[offset]?)
    (h : lowerAllIn frames is = .ok ns) :
    ∃ code, Placement root outer (Node.operatorsAll ns) (originsAll here index is) code := by
  cases is with
  | nil =>
    cases h
    exact ⟨[], .nil⟩
  | cons i is =>
    obtain ⟨n, hn, ns', hns, rfl⟩ := lowerAllIn_cons_iff.1 h
    rw [Node.operatorsAll_cons, originsAll]
    obtain ⟨code, hcode⟩ := exists_placement i (hs index) (his 0) hn
    obtain ⟨code', hcode'⟩ := exists_placementAll is (index + 1) hs
      (fun offset => by simpa [Nat.add_assoc, Nat.add_comm 1] using his (offset + 1)) hns
    exact ⟨code ++ code', hcode.append n.bracketed_operators hcode'⟩

end

theorem placed_eq {root i : Instruction} {n : Node} {outer code : List Placed}
    (h : Placement root outer n.operators (i.origins []) code) : i.placed n = code := by
  rw [placed, ← h.operators, ← h.origins, List.zipWith_map, List.zipWith_self]
  exact List.map_id code

theorem AllHit.hits {root : Instruction} {outer before after : List Placed} {x : Placed}
    (h : root.AllHit outer (before ++ x :: after)) :
    root.Hits x (Placed.openAfter outer before) :=
  (allHit_append.1 h).2.1

/-- The code of an accepted tree is properly bracketed, and each of its operators is placed at the
address of one instruction. Every branch is written for a break. In front of it the openers
are open that belong to the blocks and to the bodies of ifs around the break, more of them than the
branch is deep, and the one that it reaches is that of the innermost block around the break that
carries the label of the break. -/
theorem lowerRoot_branches {i : Instruction} {n : Node} (h : i.lowerRoot = .ok n) :
    Bracketed n.operators ∧
    (i.placed n).map Placed.operator = n.operators ∧
    (i.placed n).map Placed.origin = i.origins [] ∧
    ∀ before after origin depth, i.placed n = before ++ ⟨origin, .branch depth⟩ :: after →
      ∃ label target result,
        (i.at? origin).bind breakLabel? = some label ∧
        (Placed.openAfter [] before).map Placed.origin = origin.frames ∧
        depth < (Placed.openAfter [] before).length ∧
        i.blockAround? label origin = some target ∧
        (Placed.openAfter [] before)[depth]? = some ⟨target, .block result⟩ := by
  obtain ⟨code, hcode⟩ := exists_placement i (Surrounded.nil i) rfl h
  rw [placed_eq hcode]
  refine ⟨n.bracketed_operators, hcode.operators, hcode.origins, ?_⟩
  intro before after origin depth hsplit
  have hall := hcode.hits
  rw [hsplit] at hall
  obtain ⟨label, target, result, hlabel, hopen, htarget, hreached⟩ := hall.hits depth rfl
  obtain ⟨hlt, -⟩ := List.getElem?_eq_some_iff.1 hreached
  exact ⟨label, target, result, hlabel, hopen, hlt, htarget, hreached⟩

/-- Two blocks of one label, one inside the other. A break leaves the outer one from a condition,
others leave the inner one and the block between them from a body. -/
def shadowing : Instruction :=
  .block "a" .int32
    [.block "b" .never
      [.ifThen (.binaryOp .add .int32 (.constInt32 1) (.breakWith "a" (.constInt32 2)))
        (.block "a" .never [.breakTo "b", .breakTo "a"])],
     .constInt32 3]

/-- The break to the block between the two has the inner block and the if to pass. -/
theorem shadowing_branches :
    ∃ n before after, shadowing.lowerRoot = .ok n ∧
      shadowing.placed n =
        before ++ ⟨[.child 0, .thenBody, .child 0, .child 0], .branch 2⟩ :: after ∧
      ∃ result, (Placed.openAfter [] before)[2]? = some ⟨[.child 0], .block result⟩ := by
  obtain ⟨n, hn, hsplit⟩ : ∃ n, shadowing.lowerRoot = .ok n ∧
      shadowing.placed n = (shadowing.placed n).take 8 ++
        ⟨[.child 0, .thenBody, .child 0, .child 0], .branch 2⟩ :: (shadowing.placed n).drop 9 :=
    ⟨_, rfl, rfl⟩
  obtain ⟨-, -, -, hbranch⟩ := lowerRoot_branches hn
  obtain ⟨label, target, result, hlabel, -, -, htarget, hreached⟩ := hbranch _ _ _ _ hsplit
  cases hlabel
  cases htarget
  exact ⟨n, _, _, hn, hsplit, result, hreached⟩

end Instruction

end TreeWasm
