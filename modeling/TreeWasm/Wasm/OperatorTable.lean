-- SUMMARY: The plain operators of the format with their codes and types.
import TreeWasm.Wasm.AnyOperator

/-!
# Plain operators

The operators with fixed types come in families with neighbouring codes and equal types. Four tables
list them: those with a code of one byte, and those behind a leading byte for conversions that
cannot fail, for vectors and for atomic access. Further tables list the operators of extensions
that modules may not use.
-/

namespace TreeWasm.Wasm

/-- Operators of equal types whose codes follow each other. -/
structure Family where
  firstCode : Nat
  takes : List ValType
  gives : List ValType
  names : List String
  memory? : Option MemoryUse := none
  lanes? : Option Nat := none
deriving Repr, Inhabited

namespace Family

def op? (f : Family) (code : Nat) : Option PlainOp :=
  if f.firstCode ≤ code then
    f.names[code - f.firstCode]?.map (⟨·, f.takes, f.gives, f.memory?, f.lanes?⟩)
  else none

/-- The operator of a code. -/
def find? (families : List Family) (code : Nat) : Option PlainOp := families.findSome? (·.op? code)

/-! ## Codes of one byte -/

def memoryAccess : List Family :=
  [⟨0x28, [], [.i32], ["i32.load"], some ⟨2, false⟩, none⟩,
   ⟨0x29, [], [.i64], ["i64.load"], some ⟨3, false⟩, none⟩,
   ⟨0x2a, [], [.f32], ["f32.load"], some ⟨2, false⟩, none⟩,
   ⟨0x2b, [], [.f64], ["f64.load"], some ⟨3, false⟩, none⟩,
   ⟨0x2c, [], [.i32], ["i32.load8_s", "i32.load8_u"], some ⟨0, false⟩, none⟩,
   ⟨0x2e, [], [.i32], ["i32.load16_s", "i32.load16_u"], some ⟨1, false⟩, none⟩,
   ⟨0x30, [], [.i64], ["i64.load8_s", "i64.load8_u"], some ⟨0, false⟩, none⟩,
   ⟨0x32, [], [.i64], ["i64.load16_s", "i64.load16_u"], some ⟨1, false⟩, none⟩,
   ⟨0x34, [], [.i64], ["i64.load32_s", "i64.load32_u"], some ⟨2, false⟩, none⟩,
   ⟨0x36, [.i32], [], ["i32.store"], some ⟨2, false⟩, none⟩,
   ⟨0x37, [.i64], [], ["i64.store"], some ⟨3, false⟩, none⟩,
   ⟨0x38, [.f32], [], ["f32.store"], some ⟨2, false⟩, none⟩,
   ⟨0x39, [.f64], [], ["f64.store"], some ⟨3, false⟩, none⟩,
   ⟨0x3a, [.i32], [], ["i32.store8"], some ⟨0, false⟩, none⟩,
   ⟨0x3b, [.i32], [], ["i32.store16"], some ⟨1, false⟩, none⟩,
   ⟨0x3c, [.i64], [], ["i64.store8"], some ⟨0, false⟩, none⟩,
   ⟨0x3d, [.i64], [], ["i64.store16"], some ⟨1, false⟩, none⟩,
   ⟨0x3e, [.i64], [], ["i64.store32"], some ⟨2, false⟩, none⟩]

def comparisons : List Family :=
  [⟨0x45, [.i32], [.i32], ["i32.eqz"], none, none⟩,
   ⟨0x46, [.i32, .i32], [.i32],
    ["i32.eq", "i32.ne", "i32.lt_s", "i32.lt_u", "i32.gt_s", "i32.gt_u", "i32.le_s", "i32.le_u",
     "i32.ge_s", "i32.ge_u"], none, none⟩,
   ⟨0x50, [.i64], [.i32], ["i64.eqz"], none, none⟩,
   ⟨0x51, [.i64, .i64], [.i32],
    ["i64.eq", "i64.ne", "i64.lt_s", "i64.lt_u", "i64.gt_s", "i64.gt_u", "i64.le_s", "i64.le_u",
     "i64.ge_s", "i64.ge_u"], none, none⟩,
   ⟨0x5b, [.f32, .f32], [.i32],
    ["f32.eq", "f32.ne", "f32.lt", "f32.gt", "f32.le", "f32.ge"], none, none⟩,
   ⟨0x61, [.f64, .f64], [.i32],
    ["f64.eq", "f64.ne", "f64.lt", "f64.gt", "f64.le", "f64.ge"], none, none⟩]

def arithmetic : List Family :=
  [⟨0x67, [.i32], [.i32], ["i32.clz", "i32.ctz", "i32.popcnt"], none, none⟩,
   ⟨0x6a, [.i32, .i32], [.i32],
    ["i32.add", "i32.sub", "i32.mul", "i32.div_s", "i32.div_u", "i32.rem_s", "i32.rem_u", "i32.and",
     "i32.or", "i32.xor", "i32.shl", "i32.shr_s", "i32.shr_u", "i32.rotl", "i32.rotr"], none, none⟩,
   ⟨0x79, [.i64], [.i64], ["i64.clz", "i64.ctz", "i64.popcnt"], none, none⟩,
   ⟨0x7c, [.i64, .i64], [.i64],
    ["i64.add", "i64.sub", "i64.mul", "i64.div_s", "i64.div_u", "i64.rem_s", "i64.rem_u", "i64.and",
     "i64.or", "i64.xor", "i64.shl", "i64.shr_s", "i64.shr_u", "i64.rotl", "i64.rotr"], none, none⟩,
   ⟨0x8b, [.f32], [.f32],
    ["f32.abs", "f32.neg", "f32.ceil", "f32.floor", "f32.trunc", "f32.nearest", "f32.sqrt"], none,
    none⟩,
   ⟨0x92, [.f32, .f32], [.f32],
    ["f32.add", "f32.sub", "f32.mul", "f32.div", "f32.min", "f32.max", "f32.copysign"], none,
    none⟩,
   ⟨0x99, [.f64], [.f64],
    ["f64.abs", "f64.neg", "f64.ceil", "f64.floor", "f64.trunc", "f64.nearest", "f64.sqrt"], none,
    none⟩,
   ⟨0xa0, [.f64, .f64], [.f64],
    ["f64.add", "f64.sub", "f64.mul", "f64.div", "f64.min", "f64.max", "f64.copysign"], none,
    none⟩]

def conversions : List Family :=
  [⟨0xa7, [.i64], [.i32], ["i32.wrap_i64"], none, none⟩,
   ⟨0xa8, [.f32], [.i32], ["i32.trunc_f32_s", "i32.trunc_f32_u"], none, none⟩,
   ⟨0xaa, [.f64], [.i32], ["i32.trunc_f64_s", "i32.trunc_f64_u"], none, none⟩,
   ⟨0xac, [.i32], [.i64], ["i64.extend_i32_s", "i64.extend_i32_u"], none, none⟩,
   ⟨0xae, [.f32], [.i64], ["i64.trunc_f32_s", "i64.trunc_f32_u"], none, none⟩,
   ⟨0xb0, [.f64], [.i64], ["i64.trunc_f64_s", "i64.trunc_f64_u"], none, none⟩,
   ⟨0xb2, [.i32], [.f32], ["f32.convert_i32_s", "f32.convert_i32_u"], none, none⟩,
   ⟨0xb4, [.i64], [.f32], ["f32.convert_i64_s", "f32.convert_i64_u"], none, none⟩,
   ⟨0xb6, [.f64], [.f32], ["f32.demote_f64"], none, none⟩,
   ⟨0xb7, [.i32], [.f64], ["f64.convert_i32_s", "f64.convert_i32_u"], none, none⟩,
   ⟨0xb9, [.i64], [.f64], ["f64.convert_i64_s", "f64.convert_i64_u"], none, none⟩,
   ⟨0xbb, [.f32], [.f64], ["f64.promote_f32"], none, none⟩,
   ⟨0xbc, [.f32], [.i32], ["i32.reinterpret_f32"], none, none⟩,
   ⟨0xbd, [.f64], [.i64], ["i64.reinterpret_f64"], none, none⟩,
   ⟨0xbe, [.i32], [.f32], ["f32.reinterpret_i32"], none, none⟩,
   ⟨0xbf, [.i64], [.f64], ["f64.reinterpret_i64"], none, none⟩,
   ⟨0xc0, [.i32], [.i32], ["i32.extend8_s", "i32.extend16_s"], none, none⟩,
   ⟨0xc2, [.i64], [.i64], ["i64.extend8_s", "i64.extend16_s", "i64.extend32_s"], none, none⟩]

/-- The operators with a code of one byte. -/
def single : List Family := memoryAccess ++ comparisons ++ arithmetic ++ conversions

/-! ## Conversions that cannot fail -/

def saturating : List Family :=
  [⟨0, [.f32], [.i32], ["i32.trunc_sat_f32_s", "i32.trunc_sat_f32_u"], none, none⟩,
   ⟨2, [.f64], [.i32], ["i32.trunc_sat_f64_s", "i32.trunc_sat_f64_u"], none, none⟩,
   ⟨4, [.f32], [.i64], ["i64.trunc_sat_f32_s", "i64.trunc_sat_f32_u"], none, none⟩,
   ⟨6, [.f64], [.i64], ["i64.trunc_sat_f64_s", "i64.trunc_sat_f64_u"], none, none⟩]

/-! ## Vectors -/

/-- A family of operators on one vector. -/
def unary (firstCode : Nat) (names : List String) : Family :=
  ⟨firstCode, [.v128], [.v128], names, none, none⟩

/-- A family of operators on two vectors. -/
def binary (firstCode : Nat) (names : List String) : Family :=
  ⟨firstCode, [.v128, .v128], [.v128], names, none, none⟩

/-- A family of operators on three vectors. -/
def ternary (firstCode : Nat) (names : List String) : Family :=
  ⟨firstCode, [.v128, .v128, .v128], [.v128], names, none, none⟩

/-- A family of operators that ask something about a vector. -/
def question (firstCode : Nat) (names : List String) : Family :=
  ⟨firstCode, [.v128], [.i32], names, none, none⟩

/-- A family of operators that shift the lanes of a vector. -/
def shift (firstCode : Nat) (names : List String) : Family :=
  ⟨firstCode, [.v128, .i32], [.v128], names, none, none⟩

def vectorAccess : List Family :=
  [⟨0, [], [.v128], ["v128.load"], some ⟨4, false⟩, none⟩,
   ⟨1, [], [.v128],
    ["v128.load8x8_s", "v128.load8x8_u", "v128.load16x4_s", "v128.load16x4_u", "v128.load32x2_s",
     "v128.load32x2_u"], some ⟨3, false⟩, none⟩,
   ⟨7, [], [.v128], ["v128.load8_splat"], some ⟨0, false⟩, none⟩,
   ⟨8, [], [.v128], ["v128.load16_splat"], some ⟨1, false⟩, none⟩,
   ⟨9, [], [.v128], ["v128.load32_splat"], some ⟨2, false⟩, none⟩,
   ⟨10, [], [.v128], ["v128.load64_splat"], some ⟨3, false⟩, none⟩,
   ⟨11, [.v128], [], ["v128.store"], some ⟨4, false⟩, none⟩,
   ⟨84, [.v128], [.v128], ["v128.load8_lane"], some ⟨0, false⟩, some 16⟩,
   ⟨85, [.v128], [.v128], ["v128.load16_lane"], some ⟨1, false⟩, some 8⟩,
   ⟨86, [.v128], [.v128], ["v128.load32_lane"], some ⟨2, false⟩, some 4⟩,
   ⟨87, [.v128], [.v128], ["v128.load64_lane"], some ⟨3, false⟩, some 2⟩,
   ⟨88, [.v128], [], ["v128.store8_lane"], some ⟨0, false⟩, some 16⟩,
   ⟨89, [.v128], [], ["v128.store16_lane"], some ⟨1, false⟩, some 8⟩,
   ⟨90, [.v128], [], ["v128.store32_lane"], some ⟨2, false⟩, some 4⟩,
   ⟨91, [.v128], [], ["v128.store64_lane"], some ⟨3, false⟩, some 2⟩,
   ⟨92, [], [.v128], ["v128.load32_zero"], some ⟨2, false⟩, none⟩,
   ⟨93, [], [.v128], ["v128.load64_zero"], some ⟨3, false⟩, none⟩]

def vectorLanes : List Family :=
  [⟨15, [.i32], [.v128], ["i8x16.splat", "i16x8.splat", "i32x4.splat"], none, none⟩,
   ⟨18, [.i64], [.v128], ["i64x2.splat"], none, none⟩,
   ⟨19, [.f32], [.v128], ["f32x4.splat"], none, none⟩,
   ⟨20, [.f64], [.v128], ["f64x2.splat"], none, none⟩,
   ⟨21, [.v128], [.i32], ["i8x16.extract_lane_s", "i8x16.extract_lane_u"], none, some 16⟩,
   ⟨23, [.v128, .i32], [.v128], ["i8x16.replace_lane"], none, some 16⟩,
   ⟨24, [.v128], [.i32], ["i16x8.extract_lane_s", "i16x8.extract_lane_u"], none, some 8⟩,
   ⟨26, [.v128, .i32], [.v128], ["i16x8.replace_lane"], none, some 8⟩,
   ⟨27, [.v128], [.i32], ["i32x4.extract_lane"], none, some 4⟩,
   ⟨28, [.v128, .i32], [.v128], ["i32x4.replace_lane"], none, some 4⟩,
   ⟨29, [.v128], [.i64], ["i64x2.extract_lane"], none, some 2⟩,
   ⟨30, [.v128, .i64], [.v128], ["i64x2.replace_lane"], none, some 2⟩,
   ⟨31, [.v128], [.f32], ["f32x4.extract_lane"], none, some 4⟩,
   ⟨32, [.v128, .f32], [.v128], ["f32x4.replace_lane"], none, some 4⟩,
   ⟨33, [.v128], [.f64], ["f64x2.extract_lane"], none, some 2⟩,
   ⟨34, [.v128, .f64], [.v128], ["f64x2.replace_lane"], none, some 2⟩]

def vectorComparisons : List Family :=
  [binary 14 ["i8x16.swizzle"],
   binary 35
    ["i8x16.eq", "i8x16.ne", "i8x16.lt_s", "i8x16.lt_u", "i8x16.gt_s", "i8x16.gt_u", "i8x16.le_s",
     "i8x16.le_u", "i8x16.ge_s", "i8x16.ge_u", "i16x8.eq", "i16x8.ne", "i16x8.lt_s", "i16x8.lt_u",
     "i16x8.gt_s", "i16x8.gt_u", "i16x8.le_s", "i16x8.le_u", "i16x8.ge_s", "i16x8.ge_u",
     "i32x4.eq", "i32x4.ne", "i32x4.lt_s", "i32x4.lt_u", "i32x4.gt_s", "i32x4.gt_u", "i32x4.le_s",
     "i32x4.le_u", "i32x4.ge_s", "i32x4.ge_u", "f32x4.eq", "f32x4.ne", "f32x4.lt", "f32x4.gt",
     "f32x4.le", "f32x4.ge", "f64x2.eq", "f64x2.ne", "f64x2.lt", "f64x2.gt", "f64x2.le",
     "f64x2.ge"],
   unary 77 ["v128.not"],
   binary 78 ["v128.and", "v128.andnot", "v128.or", "v128.xor"],
   ternary 82 ["v128.bitselect"],
   question 83 ["v128.any_true"],
   binary 214
    ["i64x2.eq", "i64x2.ne", "i64x2.lt_s", "i64x2.gt_s", "i64x2.le_s", "i64x2.ge_s"]]

def vectorBytes : List Family :=
  [unary 94 ["f32x4.demote_f64x2_zero", "f64x2.promote_low_f32x4", "i8x16.abs", "i8x16.neg",
    "i8x16.popcnt"],
   question 99 ["i8x16.all_true", "i8x16.bitmask"],
   binary 101 ["i8x16.narrow_i16x8_s", "i8x16.narrow_i16x8_u"],
   unary 103 ["f32x4.ceil", "f32x4.floor", "f32x4.trunc", "f32x4.nearest"],
   shift 107 ["i8x16.shl", "i8x16.shr_s", "i8x16.shr_u"],
   binary 110
    ["i8x16.add", "i8x16.add_sat_s", "i8x16.add_sat_u", "i8x16.sub", "i8x16.sub_sat_s",
     "i8x16.sub_sat_u"],
   unary 116 ["f64x2.ceil", "f64x2.floor"],
   binary 118 ["i8x16.min_s", "i8x16.min_u", "i8x16.max_s", "i8x16.max_u"],
   unary 122 ["f64x2.trunc"],
   binary 123 ["i8x16.avgr_u"]]

def vectorShorts : List Family :=
  [unary 124
    ["i16x8.extadd_pairwise_i8x16_s", "i16x8.extadd_pairwise_i8x16_u",
     "i32x4.extadd_pairwise_i16x8_s", "i32x4.extadd_pairwise_i16x8_u", "i16x8.abs", "i16x8.neg"],
   binary 130 ["i16x8.q15mulr_sat_s"],
   question 131 ["i16x8.all_true", "i16x8.bitmask"],
   binary 133 ["i16x8.narrow_i32x4_s", "i16x8.narrow_i32x4_u"],
   unary 135
    ["i16x8.extend_low_i8x16_s", "i16x8.extend_high_i8x16_s", "i16x8.extend_low_i8x16_u",
     "i16x8.extend_high_i8x16_u"],
   shift 139 ["i16x8.shl", "i16x8.shr_s", "i16x8.shr_u"],
   binary 142
    ["i16x8.add", "i16x8.add_sat_s", "i16x8.add_sat_u", "i16x8.sub", "i16x8.sub_sat_s",
     "i16x8.sub_sat_u"],
   unary 148 ["f64x2.nearest"],
   binary 149 ["i16x8.mul", "i16x8.min_s", "i16x8.min_u", "i16x8.max_s", "i16x8.max_u"],
   binary 155 ["i16x8.avgr_u"],
   binary 156
    ["i16x8.extmul_low_i8x16_s", "i16x8.extmul_high_i8x16_s", "i16x8.extmul_low_i8x16_u",
     "i16x8.extmul_high_i8x16_u"]]

def vectorWords : List Family :=
  [unary 160 ["i32x4.abs", "i32x4.neg"],
   question 163 ["i32x4.all_true", "i32x4.bitmask"],
   unary 167
    ["i32x4.extend_low_i16x8_s", "i32x4.extend_high_i16x8_s", "i32x4.extend_low_i16x8_u",
     "i32x4.extend_high_i16x8_u"],
   shift 171 ["i32x4.shl", "i32x4.shr_s", "i32x4.shr_u"],
   binary 174 ["i32x4.add"],
   binary 177 ["i32x4.sub"],
   binary 181
    ["i32x4.mul", "i32x4.min_s", "i32x4.min_u", "i32x4.max_s", "i32x4.max_u",
     "i32x4.dot_i16x8_s"],
   binary 188
    ["i32x4.extmul_low_i16x8_s", "i32x4.extmul_high_i16x8_s", "i32x4.extmul_low_i16x8_u",
     "i32x4.extmul_high_i16x8_u"],
   unary 192 ["i64x2.abs", "i64x2.neg"],
   question 195 ["i64x2.all_true", "i64x2.bitmask"],
   unary 199
    ["i64x2.extend_low_i32x4_s", "i64x2.extend_high_i32x4_s", "i64x2.extend_low_i32x4_u",
     "i64x2.extend_high_i32x4_u"],
   shift 203 ["i64x2.shl", "i64x2.shr_s", "i64x2.shr_u"],
   binary 206 ["i64x2.add"],
   binary 209 ["i64x2.sub"],
   binary 213 ["i64x2.mul"],
   binary 220
    ["i64x2.extmul_low_i32x4_s", "i64x2.extmul_high_i32x4_s", "i64x2.extmul_low_i32x4_u",
     "i64x2.extmul_high_i32x4_u"]]

def vectorFloats : List Family :=
  [unary 224 ["f32x4.abs", "f32x4.neg"],
   unary 227 ["f32x4.sqrt"],
   binary 228
    ["f32x4.add", "f32x4.sub", "f32x4.mul", "f32x4.div", "f32x4.min", "f32x4.max", "f32x4.pmin",
     "f32x4.pmax"],
   unary 236 ["f64x2.abs", "f64x2.neg"],
   unary 239 ["f64x2.sqrt"],
   binary 240
    ["f64x2.add", "f64x2.sub", "f64x2.mul", "f64x2.div", "f64x2.min", "f64x2.max", "f64x2.pmin",
     "f64x2.pmax"],
   unary 248
    ["i32x4.trunc_sat_f32x4_s", "i32x4.trunc_sat_f32x4_u", "f32x4.convert_i32x4_s",
     "f32x4.convert_i32x4_u", "i32x4.trunc_sat_f64x2_s_zero", "i32x4.trunc_sat_f64x2_u_zero",
     "f64x2.convert_low_i32x4_s", "f64x2.convert_low_i32x4_u"],
   binary 0x100 ["i8x16.relaxed_swizzle"],
   unary 0x101
    ["i32x4.relaxed_trunc_f32x4_s", "i32x4.relaxed_trunc_f32x4_u",
     "i32x4.relaxed_trunc_f64x2_s_zero", "i32x4.relaxed_trunc_f64x2_u_zero"],
   ternary 0x105
    ["f32x4.relaxed_madd", "f32x4.relaxed_nmadd", "f64x2.relaxed_madd", "f64x2.relaxed_nmadd",
     "i8x16.relaxed_laneselect", "i16x8.relaxed_laneselect", "i32x4.relaxed_laneselect",
     "i64x2.relaxed_laneselect"],
   binary 0x10d
    ["f32x4.relaxed_min", "f32x4.relaxed_max", "f64x2.relaxed_min", "f64x2.relaxed_max",
     "i16x8.relaxed_q15mulr_s", "i16x8.relaxed_dot_i8x16_i7x16_s"],
   ternary 0x113 ["i32x4.relaxed_dot_i8x16_i7x16_add_s"]]

/-- The operators on vectors. -/
def vector : List Family :=
  vectorAccess ++ vectorLanes ++ vectorComparisons ++ vectorBytes ++ vectorShorts ++ vectorWords ++
    vectorFloats

/-! ## Atomic access -/

/-- The width of an atomic access: the type of the value, the logarithm of the size, and the part of
the operator's name that tells the size. -/
def atomicWidths : List (ValType × Nat × String) :=
  [(.i32, 2, ""), (.i64, 3, ""), (.i32, 0, "8"), (.i32, 1, "16"), (.i64, 0, "8"), (.i64, 1, "16"),
   (.i64, 2, "32")]

/-- The seven operators that change a place in memory in one way. They take `operands` values and
give back the value that was there. -/
def atomicChange (firstCode operands : Nat) (action : String) : List Family :=
  atomicWidths.mapIdx fun i (type, alignment, size) =>
    let sign := if size = "" then "" else "_u"
    ⟨firstCode + i, List.replicate operands type, [type],
      [type.name ++ ".atomic.rmw" ++ size ++ "." ++ action ++ sign], some ⟨alignment, true⟩, none⟩

def atomicLoads : List Family :=
  atomicWidths.mapIdx fun i (type, alignment, size) =>
    let sign := if size = "" then "" else "_u"
    ⟨0x10 + i, [], [type], [type.name ++ ".atomic.load" ++ size ++ sign], some ⟨alignment, true⟩,
      none⟩

def atomicStores : List Family :=
  atomicWidths.mapIdx fun i (type, alignment, size) =>
    ⟨0x17 + i, [type], [], [type.name ++ ".atomic.store" ++ size], some ⟨alignment, true⟩, none⟩

/-- The operators for atomic access. -/
def atomic : List Family :=
  [⟨0, [.i32], [.i32], ["memory.atomic.notify"], some ⟨2, true⟩, none⟩,
   ⟨1, [.i32, .i64], [.i32], ["memory.atomic.wait32"], some ⟨2, true⟩, none⟩,
   ⟨2, [.i64, .i64], [.i32], ["memory.atomic.wait64"], some ⟨3, true⟩, none⟩] ++
    atomicLoads ++ atomicStores ++
    atomicChange 0x1e 1 "add" ++ atomicChange 0x25 1 "sub" ++ atomicChange 0x2c 1 "and" ++
    atomicChange 0x33 1 "or" ++ atomicChange 0x3a 1 "xor" ++ atomicChange 0x41 1 "xchg" ++
    atomicChange 0x48 2 "cmpxchg"

end Family

/-! ## Additions -/

/-- The kinds of arguments that operators of extensions have. -/
inductive Argument where
  | index
  | block
  | heap
  | cast
  | clauses
  | ordering
deriving DecidableEq, Repr, Inhabited

/-- Operators of an extension of the format that modules may not use. Their codes follow each other,
and their arguments are of the same kinds. -/
structure Addition where
  feature : String
  firstCode : Nat
  args : List Argument
  names : List String
deriving Repr, Inhabited

namespace Addition

/-- The name of the operator of a code, with the addition it belongs to. -/
def find? (additions : List Addition) (code : Nat) : Option (String × Addition) :=
  additions.findSome? fun a =>
    if a.firstCode ≤ code then a.names[code - a.firstCode]?.map (·, a) else none

/-- Additions with a code of one byte. -/
def single : List Addition :=
  [⟨"legacy exceptions", 0x06, [.block], ["try"]⟩,
   ⟨"legacy exceptions", 0x09, [.index], ["rethrow"]⟩,
   ⟨"stack switching", 0xe0, [.index], ["cont.new"]⟩,
   ⟨"stack switching", 0xe1, [.index, .index], ["cont.bind"]⟩,
   ⟨"stack switching", 0xe2, [.index], ["suspend"]⟩,
   ⟨"stack switching", 0xe3, [.index, .clauses], ["resume"]⟩,
   ⟨"stack switching", 0xe4, [.index, .index, .clauses], ["resume_throw"]⟩,
   ⟨"stack switching", 0xe5, [.index, .clauses], ["resume_throw_ref"]⟩,
   ⟨"stack switching", 0xe6, [.index, .index], ["switch"]⟩]

/-- Additions to the operators on references, structures and arrays. -/
def managed : List Addition :=
  [⟨"custom descriptors", 0x20, [.index], ["struct.new_desc", "struct.new_default_desc",
     "ref.get_desc"]⟩,
   ⟨"custom descriptors", 0x23, [.heap], ["ref.cast_desc_eq_non_null",
     "ref.cast_desc_eq_nullable"]⟩,
   ⟨"custom descriptors", 0x25, [.cast], ["br_on_cast_desc_eq", "br_on_cast_desc_eq_fail"]⟩]

/-- Additions to the operators on whole memories, and on integers of 128 bits. -/
def bulk : List Addition :=
  [⟨"memory control", 18, [.index], ["memory.discard"]⟩,
   ⟨"wide arithmetic", 19, [], ["i64.add128", "i64.sub128", "i64.mul_wide_s", "i64.mul_wide_u"]⟩]

/-- The endings of the operators that change a place that threads share. -/
def changes : List String :=
  ["rmw.add", "rmw.sub", "rmw.and", "rmw.or", "rmw.xor", "rmw.xchg", "rmw.cmpxchg"]

/-- Additions to the operators for atomic access. -/
def atomic : List Addition :=
  [⟨"shared-everything-threads", 0x4f, [.ordering, .index],
    (["get", "set"] ++ changes).map ("global.atomic." ++ ·)⟩,
   ⟨"shared-everything-threads", 0x58, [.ordering, .index],
    ["get", "set", "rmw.xchg", "rmw.cmpxchg"].map ("table.atomic." ++ ·)⟩,
   ⟨"shared-everything-threads", 0x5c, [.ordering, .index, .index],
    (["get", "get_s", "get_u", "set"] ++ changes).map ("struct.atomic." ++ ·)⟩,
   ⟨"shared-everything-threads", 0x67, [.ordering, .index],
    (["get", "get_s", "get_u", "set"] ++ changes).map ("array.atomic." ++ ·)⟩,
   ⟨"shared-everything-threads", 0x72, [], ["ref.i31_shared"]⟩]

end Addition

/-! ## Constants -/

/-- The operators that push a constant which they hold. -/
def PlainOp.constant (type : ValType) : PlainOp := ⟨type.name ++ ".const", [], [type], none, none⟩

end TreeWasm.Wasm
