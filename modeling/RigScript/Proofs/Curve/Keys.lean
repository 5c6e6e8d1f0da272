import Mathlib.Algebra.Order.Group.Int
import Mathlib.Data.List.Induction
import Mathlib.Data.List.Sort
import Mathlib.Data.Prod.Lex
import RigScript.Proofs.Graph.Journal
import RigScript.Proofs.Graph.Reachable

/-!
# The keys of a curve

Keys are created one by one, in any order, and a key replaces those at its position. A new key is
put in its place by a binary search, which is only right on a list that is in order. This module
shows that the list always is: the keys of a curve are a map from positions to keys, sorted by
position, in which the last key that was created at a position counts.

Positions are doubles. Their comparison is a total preorder on all doubles but NaN, in which the two
zeros are equal: each double has a place in a linear order, and comparing doubles is comparing their
places.

## Main definitions

* `RigScript.place`: the place of a double in the order of doubles
* `RigScript.Curve.keysOf`: the keys of a curve on which keys were created one by one
* `RigScript.Curve.lastAt`: the last key that was created at a position
* `RigScript.Graph.KeyHistory`: the keys that were created on a curve since it was created itself

## Main results

* `RigScript.lt_iff_place_lt`, `RigScript.beq_iff_place_eq`: doubles are compared by their places
* `RigScript.partitionPoint_append`: **the binary search finds the end of a beginning**
* `RigScript.Curve.insertKey_eq`: a key goes between those before it and those after it
* `RigScript.Curve.keysOf_eq_of_lastAt`: the keys depend only on the last one at each position
* `RigScript.Graph.KeyHistory.afterRequests`: what requests add to the history of a curve
* `RigScript.Graph.keys_form_sorted_map`: **the keys of a curve form a sorted map**
-/

namespace RigScript

/-! ### The order of doubles -/

open Float.Model (UnpackedFloat)

/-- The place of an unpacked double: numbers are told apart by the side of zero that they are on,
then by how far their exponents and at last their mantissas take them away from it. -/
def placeOf : UnpackedFloat → ℤ ×ₗ ℤ ×ₗ ℤ
  | .infinity .negative => toLex (-2, toLex (0, 0))
  | .finite .negative mantissa exponent _ => toLex (-1, toLex (-exponent, -mantissa))
  | .zero _ => toLex (0, toLex (0, 0))
  | .finite .positive mantissa exponent _ => toLex (1, toLex (exponent, mantissa))
  | .infinity .positive => toLex (2, toLex (0, 0))
  | .notANumber => toLex (0, toLex (0, 0))

/-- The **place** of a double in the order of doubles. The two zeros share one; that of NaN means
nothing. -/
def place (x : Float) : ℤ ×ₗ ℤ ×ₗ ℤ :=
  placeOf x.toModel.unpack

/-- Lists of a sign, an exponent and a mantissa are compared from the front. -/
theorem compare_toLex (a b c a' b' c' : ℤ) :
    compare (toLex (a, toLex (b, c))) (toLex (a', toLex (b', c'))) =
      (compare a a').then ((compare b b').then (compare c c')) := by
  simp only [Prod.Lex.compare_def, compareLex, compareOn, ofLex_toLex]

/-- On the negative side the order is turned round. -/
theorem compare_neg_neg (a b : ℤ) : compare (-a) (-b) = (compare a b).swap := by
  rw [Int.compare_swap]
  simp only [Int.compare_eq_ite_lt, Int.neg_lt_neg_iff]

/-- Mantissas are compared as numbers. -/
theorem compare_natCast (m n : ℕ) : compare (m : ℤ) (n : ℤ) = compare m n := by
  simp only [Int.compare_eq_ite_lt, Nat.compare_eq_ite_lt, Int.ofNat_lt]

/-- Unpacked doubles are compared by their places, unless one of them is NaN. -/
theorem compare_unpacked (x y : UnpackedFloat) :
    x.compare y =
      if x.isNaN || y.isNaN then none else some (compare (placeOf x) (placeOf y)) := by
  rcases x with (_ | _) | _ | _ | ⟨_ | _, m, e, hm⟩ <;>
    rcases y with (_ | _) | _ | _ | ⟨_ | _, n, f, hn⟩
  -- Two numbers on one side of zero are compared by exponent and mantissa.
  case finite.negative.finite.negative =>
    change some ((compare e f).then (compare m n)).swap =
      some (compare (toLex (-1, toLex (-e, -(m : ℤ)))) (toLex (-1, toLex (-f, -(n : ℤ)))))
    simp only [compare_toLex, compare_neg_neg, compare_natCast, Ordering.swap_then]
    rfl
  case finite.positive.finite.positive =>
    change some ((compare e f).then (compare m n)) =
      some (compare (toLex (1, toLex (e, (m : ℤ)))) (toLex (1, toLex (f, (n : ℤ)))))
    simp only [compare_toLex, compare_natCast]
    rfl
  -- All others are told apart by their sides.
  all_goals rfl

/-- Doubles other than NaN are compared by their places. -/
theorem compare_unpack {x y : Float} (hx : x.isNaN = false) (hy : y.isNaN = false) :
    x.toModel.unpack.compare y.toModel.unpack = some (compare (place x) (place y)) := by
  have hx : x.toModel.unpack.isNaN = false := hx
  have hy : y.toModel.unpack.isNaN = false := hy
  rw [compare_unpacked, hx, hy]
  rfl

/-- **Less is less in place.** -/
theorem lt_iff_place_lt {x y : Float} (hx : x.isNaN = false) (hy : y.isNaN = false) :
    x < y ↔ place x < place y := by
  have hlt : x < y ↔ x.toModel.unpack.compare y.toModel.unpack = some .lt :=
    decide_eq_true_iff.trans beq_iff_eq
  rw [hlt, compare_unpack hx hy, Option.some_inj, compare_lt_iff_lt]

/-- **Equal is equal in place.** -/
theorem beq_iff_place_eq {x y : Float} (hx : x.isNaN = false) (hy : y.isNaN = false) :
    (x == y) = true ↔ place x = place y := by
  have heq : (x == y) = (x.toModel.unpack.compare y.toModel.unpack == some .eq) := rfl
  rw [heq, beq_iff_eq, compare_unpack hx hy, Option.some_inj, compare_eq_iff_eq]

/-! ### The binary search -/

section Search

variable {α : Type} {p : α → Bool} {xs ys zs : List α}

/-- **Halving keeps the boundary in sight.** When the first `m` elements and no others satisfy `p`
and the boundary lies among the elements that are left, halving ends next to it. -/
theorem bisect_bounds {m : ℕ} (hp : ∀ i, xs[i]?.any p = decide (i < m)) {base size : ℕ}
    (hbase : base ≤ m) (hsize : m ≤ base + size) :
    bisect p xs base size ≤ m ∧ m ≤ bisect p xs base size + 1 := by
  fun_induction bisect p xs base size with
  | case1 base size hstop => omega
  | case2 base size hgo mid ih =>
      by_cases hmid : mid < m
      · simp only [hp, hmid, decide_true, if_true, dite_true] at ih ⊢
        exact ih (by omega) (by omega)
      · simp only [hp, hmid, decide_false, Bool.false_eq_true, if_false, dite_false] at ih ⊢
        exact ih (by omega) (by omega)

/-- **The binary search finds the end of a beginning.** -/
theorem partitionPoint_append (hys : ∀ y ∈ ys, p y = true) (hzs : ∀ z ∈ zs, p z = false) :
    partitionPoint p (ys ++ zs) = ys.length := by
  have hp : ∀ i, (ys ++ zs)[i]?.any p = decide (i < ys.length) := by
    intro i
    by_cases hi : i < ys.length
    · rw [List.getElem?_append_left hi, List.getElem?_eq_getElem hi, Option.any_some,
        hys _ (List.getElem_mem hi), decide_eq_true hi]
    · rw [List.getElem?_append_right (by omega), decide_eq_false hi, Option.any_eq_false]
      intro z hz
      simp [hzs z (List.mem_of_getElem? hz)]
  obtain ⟨hle, hge⟩ := bisect_bounds hp (Nat.zero_le _)
    (show ys.length ≤ 0 + (ys ++ zs).length by simp)
  simp only [partitionPoint, hp, decide_eq_true_iff]
  split <;> omega

/-- A list in which `p` holds of everything before an element that it holds of is what `p` picks
followed by the rest. -/
theorem filter_append_filter_not (h : xs.Pairwise fun a b => p b = true → p a = true) :
    xs.filter p ++ xs.filter (fun x => !p x) = xs := by
  induction xs with
  | nil => rfl
  | cons x xs ih =>
      obtain ⟨hx, hxs⟩ := List.pairwise_cons.1 h
      by_cases hpx : p x = true
      · simp [hpx, ih hxs]
      · have hnone : ∀ y ∈ xs, ¬ p y = true := fun y hy hpy => hpx (hx y hy hpy)
        rw [List.filter_eq_nil_iff.2 (by simpa [hpx] using hnone), List.nil_append,
          List.filter_eq_self.2 (by simpa [hpx] using hnone)]

/-- Inserting between two parts of a list. -/
theorem insertIdx_length_append (x : α) : (ys ++ zs).insertIdx ys.length x = ys ++ x :: zs := by
  induction ys with
  | nil => rfl
  | cons y ys ih => simp [ih]

/-- Where the binary search ends, an element goes between what `p` picks and the rest. -/
theorem insertIdx_partitionPoint (h : xs.Pairwise fun a b => p b = true → p a = true) (x : α) :
    xs.insertIdx (partitionPoint p xs) x = xs.filter p ++ x :: xs.filter (fun x => !p x) := by
  have hparts := filter_append_filter_not h
  have hpoint : partitionPoint p xs = (xs.filter p).length := by
    conv_lhs => rw [← hparts]
    refine partitionPoint_append (fun y hy => List.of_mem_filter hy) fun z hz => ?_
    simpa using List.of_mem_filter hz
  calc xs.insertIdx (partitionPoint p xs) x
      = (xs.filter p ++ xs.filter (fun x => !p x)).insertIdx (xs.filter p).length x := by
        rw [hparts, hpoint]
    _ = xs.filter p ++ x :: xs.filter (fun x => !p x) := insertIdx_length_append x

end Search

/-! ### Inserting a key -/

namespace Curve

variable {key : Keyframe Float} {keys created : List (Keyframe Float)}

/-- Keys are **ordered** when their positions increase. -/
def Ordered (keys : List (Keyframe Float)) : Prop :=
  keys.Pairwise fun a b => a.position < b.position

/-- Keys are **placed** when their positions are numbers. -/
def Placed (keys : List (Keyframe Float)) : Prop :=
  ∀ key ∈ keys, key.position.isNaN = false

/-- **A key goes between the keys before its position and those after it**, and replaces what is
there. -/
theorem insertKey_eq (hkey : key.position.isNaN = false) (hplaced : Placed keys)
    (hordered : Ordered keys) :
    insertKey key keys = keys.filter (fun k => k.position < key.position) ++
      key :: keys.filter (fun k => key.position < k.position) := by
  let kept := keys.filter fun k => !(k.position == key.position)
  let before : Keyframe Float → Bool := fun k => k.position < key.position
  have hpairs : kept.Pairwise fun a b => before b = true → before a = true := by
    refine (hordered.filter _).imp_of_mem fun ha hb hab hbefore => ?_
    have ha := hplaced _ (List.mem_of_mem_filter ha)
    have hb := hplaced _ (List.mem_of_mem_filter hb)
    rw [decide_eq_true_iff, lt_iff_place_lt hb hkey] at hbefore
    rw [decide_eq_true_iff, lt_iff_place_lt ha hkey]
    exact ((lt_iff_place_lt ha hb).1 hab).trans hbefore
  have hbefore : kept.filter before = keys.filter before := by
    rw [List.filter_filter]
    refine List.filter_congr fun k hk => ?_
    rw [Bool.and_eq_left_iff_imp, Bool.not_eq_true', ← Bool.not_eq_true, decide_eq_true_iff,
      lt_iff_place_lt (hplaced k hk) hkey, beq_iff_place_eq (hplaced k hk) hkey]
    exact ne_of_lt
  have hafter : kept.filter (fun k => !before k) =
      keys.filter (fun k => key.position < k.position) := by
    rw [List.filter_filter]
    refine List.filter_congr fun k hk => ?_
    rw [Bool.eq_iff_iff, Bool.and_eq_true, Bool.not_eq_true', Bool.not_eq_true',
      ← Bool.not_eq_true, ← Bool.not_eq_true, decide_eq_true_iff, decide_eq_true_iff,
      lt_iff_place_lt (hplaced k hk) hkey, lt_iff_place_lt hkey (hplaced k hk),
      beq_iff_place_eq (hplaced k hk) hkey, not_lt, lt_iff_le_and_ne, ne_comm]
  calc insertKey key keys
      = kept.insertIdx (partitionPoint before kept) key := rfl
    _ = kept.filter before ++ key :: kept.filter (fun k => !before k) :=
        insertIdx_partitionPoint hpairs key
    _ = _ := by rw [hbefore, hafter]

/-- Inserting a key keeps the keys that stand elsewhere. -/
theorem mem_insertKey (hkey : key.position.isNaN = false) (hplaced : Placed keys)
    (hordered : Ordered keys) {k : Keyframe Float} :
    k ∈ insertKey key keys ↔ k = key ∨ k ∈ keys ∧ ¬ (key.position == k.position) = true := by
  rw [insertKey_eq hkey hplaced hordered]
  simp only [List.mem_append, List.mem_cons, List.mem_filter, decide_eq_true_iff]
  rw [or_left_comm, ← and_or_left]
  refine or_congr_right (and_congr_right fun hk => ?_)
  rw [lt_iff_place_lt (hplaced k hk) hkey, lt_iff_place_lt hkey (hplaced k hk),
    beq_iff_place_eq hkey (hplaced k hk), lt_or_lt_iff_ne, ne_comm]

/-- Inserting a number keeps the positions numbers. -/
theorem Placed.insertKey (hkey : key.position.isNaN = false) (hplaced : Placed keys)
    (hordered : Ordered keys) : Placed (insertKey key keys) := by
  intro k hk
  rcases (mem_insertKey hkey hplaced hordered).1 hk with rfl | ⟨hk, -⟩
  · exact hkey
  · exact hplaced k hk

/-- Inserting a key keeps the keys in order. -/
theorem Ordered.insertKey (hkey : key.position.isNaN = false) (hplaced : Placed keys)
    (hordered : Ordered keys) : Ordered (insertKey key keys) := by
  have hbefore : ∀ k ∈ keys.filter (fun k => k.position < key.position),
      k.position < key.position := fun k hk => by simpa using List.of_mem_filter hk
  have hafter : ∀ k ∈ keys.filter (fun k => key.position < k.position),
      key.position < k.position := fun k hk => by simpa using List.of_mem_filter hk
  rw [Ordered, insertKey_eq hkey hplaced hordered, List.pairwise_append, List.pairwise_cons]
  refine ⟨hordered.filter _, ⟨hafter, hordered.filter _⟩, fun a ha b hb => ?_⟩
  rcases List.mem_cons.1 hb with rfl | hb
  · exact hbefore a ha
  · have hplace : ∀ {k : Keyframe Float} {p : Keyframe Float → Bool},
        k ∈ keys.filter p → k.position.isNaN = false :=
      fun hk => hplaced _ (List.mem_of_mem_filter hk)
    rw [lt_iff_place_lt (hplace ha) (hplace hb)]
    exact ((lt_iff_place_lt (hplace ha) hkey).1 (hbefore a ha)).trans
      ((lt_iff_place_lt hkey (hplace hb)).1 (hafter b hb))

/-! ### Keys one by one -/

/-- The keys of a curve on which keys were created one by one. -/
def keysOf (created : List (Keyframe Float)) : List (Keyframe Float) :=
  created.foldl (fun keys key => insertKey key keys) []

/-- The **last key** that was created at a position. -/
def lastAt (created : List (Keyframe Float)) (x : Float) : Option (Keyframe Float) :=
  (created.filter fun key => key.position == x).getLast?

theorem keysOf_concat (created : List (Keyframe Float)) (key : Keyframe Float) :
    keysOf (created ++ [key]) = insertKey key (keysOf created) := by
  rw [keysOf, List.foldl_append]
  rfl

/-- A new key is the last one at its position. -/
theorem lastAt_concat (created : List (Keyframe Float)) (key : Keyframe Float) (x : Float) :
    lastAt (created ++ [key]) x =
      if key.position == x then some key else lastAt created x := by
  rw [lastAt, List.filter_append]
  by_cases hx : (key.position == x) = true
  · simp [hx]
  · simp [hx, lastAt]

/-- **The keys are in order, and they are the last ones at their positions.** Each insertion needs
the order that the ones before it left behind. -/
theorem keysOf_sortedMap (hplaced : Placed created) :
    Placed (keysOf created) ∧ Ordered (keysOf created) ∧
      ∀ key, key ∈ keysOf created ↔ lastAt created key.position = some key := by
  induction created using List.reverseRecOn with
  | nil =>
      refine ⟨fun key hkey => absurd hkey List.not_mem_nil, .nil, fun key => ?_⟩
      simp [keysOf, lastAt]
  | append_singleton created new ih =>
      have hnew : new.position.isNaN = false := hplaced new (by simp)
      obtain ⟨hkeys, hordered, hmem⟩ := ih fun key hkey => hplaced key (by simp [hkey])
      rw [keysOf_concat]
      refine ⟨hkeys.insertKey hnew hordered, hordered.insertKey hnew hkeys, fun key => ?_⟩
      rw [mem_insertKey hnew hkeys hordered, hmem, lastAt_concat]
      by_cases hat : (new.position == key.position) = true
      · simp [hat, eq_comm]
      · have hne : key ≠ new := by
          rintro rfl
          exact hat ((beq_iff_place_eq hnew hnew).2 rfl)
        simp [hat, hne]

/-- **The keys depend only on the last one at each position**, not on the order in which they were
created. -/
theorem keysOf_eq_of_lastAt {created' : List (Keyframe Float)} (hplaced : Placed created)
    (hplaced' : Placed created') (hlast : ∀ x, lastAt created' x = lastAt created x) :
    keysOf created' = keysOf created := by
  obtain ⟨hkeys, hordered, hmem⟩ := keysOf_sortedMap hplaced
  obtain ⟨hkeys', hordered', hmem'⟩ := keysOf_sortedMap hplaced'
  have hplaces : ∀ {keys}, Placed keys → Ordered keys →
      keys.Pairwise fun a b => place a.position < place b.position := by
    intro keys hkeys hordered
    exact hordered.imp_of_mem fun ha hb hab => (lt_iff_place_lt (hkeys _ ha) (hkeys _ hb)).1 hab
  have : Std.Irrefl fun a b : Keyframe Float => place a.position < place b.position :=
    ⟨fun a => lt_irrefl _⟩
  have : Std.Antisymm fun a b : Keyframe Float => place a.position < place b.position :=
    ⟨fun a b hab hba => absurd hab hba.not_gt⟩
  refine (hplaces hkeys' hordered').eq_of_mem_iff (hplaces hkeys hordered) fun key => ?_
  rw [hmem, hmem', hlast]

end Curve

/-! ### The history of a curve -/

/-- The keys that a request creates on a node. -/
def Request.keysOn (name : String) : Request → List (Keyframe Float)
  | createKeyframe curve key => if curve = name then [key] else []
  | _ => []

namespace Graph

variable {g g' : Graph} {name : String} {created : List (Keyframe Float)}

/-- **The history of a curve**: `g.KeyHistory name created` says that `name` is a curve on which
exactly the keys `created` were created since it was created itself, in this order. In between,
anything may have happened to the graph but the deletion and the replacement of the node. -/
inductive KeyHistory (name : String) : Graph → List (Keyframe Float) → Prop
  | addNode (g : Graph) : KeyHistory name (g.addNode name (.primitive .rampCurve)) []
  | createNode {g g' : Graph} :
      g.perform (.createNode (.primitive .rampCurve)) = .ok (name, g') → KeyHistory name g' []
  | request {g g' : Graph} {created : List (Keyframe Float)} {r : Request} {reply : r.Reply} :
      KeyHistory name g created → g.perform r = .ok (reply, g') → r ≠ .deleteNode name →
      KeyHistory name g' (created ++ r.keysOn name)
  | addOther {g : Graph} {created : List (Keyframe Float)} {other : String} (kind : NodeKind) :
      KeyHistory name g created → other ≠ name → KeyHistory name (g.addNode other kind) created
  | addAttribute {g : Graph} {created : List (Keyframe Float)} (p : Plug) (v : Value) :
      KeyHistory name g created → KeyHistory name (g.addAttribute p v) created
  | lock {g g' : Graph} {created : List (Keyframe Float)} {p : Plug} :
      KeyHistory name g created → g.lock p = .ok g' → KeyHistory name g' created
  | addConnection {g g' : Graph} {created : List (Keyframe Float)} {source dest : Plug} :
      KeyHistory name g created → g.addConnection source dest = .ok g' →
      KeyHistory name g' created
  | select {g g' : Graph} {created : List (Keyframe Float)} {selected : String} :
      KeyHistory name g created → g.select selected = .ok g' → KeyHistory name g' created
  | clearJournal {g : Graph} {created : List (Keyframe Float)} :
      KeyHistory name g created → KeyHistory name g.clearJournal created

/-- The kind of a node and its keys. -/
def keying (g : Graph) (name : String) : Option (NodeKind × List (Keyframe Float)) :=
  g.nodes[name]?.map fun n => (n.kind, n.curve.keys)

/-- Putting a node under a name leaves the other nodes as they are. -/
theorem keying_putNode_of_ne {other : String} (hne : other ≠ name) (m : Node)
    (journal : List Change) :
    keying { g with nodes := g.nodes.insert other m, journal } name = g.keying name := by
  rw [keying, Std.ExtTreeMap.getElem?_insert, if_neg (by simpa using hne), keying]

/-- A node is replaced by one of the same kind with the same keys. -/
theorem keying_putNode {other : String} {n m : Node} (hn : g.nodes[other]? = some n)
    (hsame : (m.kind, m.curve.keys) = (n.kind, n.curve.keys)) (journal : List Change) :
    keying { g with nodes := g.nodes.insert other m, journal } name = g.keying name := by
  by_cases hname : other = name
  · subst hname
    rw [keying, Std.ExtTreeMap.getElem?_insert_self, keying, hn, Option.map_some, Option.map_some,
      hsame]
  · exact keying_putNode_of_ne hname m journal

/-- A new key is inserted among those of the curve. -/
theorem keying_createKeyframe {key : Keyframe Float}
    (h : g.perform (.createKeyframe name key) = .ok ((), g')) :
    g'.keying name = (g.keying name).map fun k => (k.1, Curve.insertKey key k.2) := by
  obtain ⟨n, hn, rfl⟩ := perform_createKeyframe.1 h
  simp [keying, (checkCurve_eq_ok_iff.1 hn).1, Curve.addKey]

/-- **Other requests leave the keys of a node as they are**, unless they delete the node. -/
theorem keying_perform {r : Request} {reply : r.Reply} (hname : name ∈ g.nodes)
    (hr : g.perform r = .ok (reply, g')) (hne : r ≠ .deleteNode name)
    (hkeys : r.keysOn name = []) : g'.keying name = g.keying name := by
  cases r with
  | createKeyframe curve key =>
      obtain ⟨n, hn, rfl⟩ := perform_createKeyframe.1 hr
      have hcurve : curve ≠ name := by
        rintro rfl
        simp [Request.keysOn] at hkeys
      exact keying_putNode_of_ne hcurve _ _
  | createNode kind =>
      obtain ⟨-, rfl⟩ := perform_createNode.1 hr
      have hfresh : g.freshName kind ≠ name := by
        rintro rfl
        exact g.freshName_notMem kind hname
      exact keying_putNode_of_ne hfresh _ _
  | setAttribute p v =>
      obtain ⟨n, hn, -, -, rfl⟩ := perform_setAttribute.1 hr
      refine keying_putNode (checkAttr_eq_ok_iff.1 hn).1 ?_ _
      rfl
  | setLocked p locked =>
      obtain ⟨n, hn, rfl⟩ := perform_setLocked.1 hr
      refine keying_putNode (checkAttr_eq_ok_iff.1 hn).1 ?_ _
      rfl
  | setExtrapolation curve pre post =>
      obtain ⟨n, hn, rfl⟩ := perform_setExtrapolation.1 hr
      refine keying_putNode (checkCurve_eq_ok_iff.1 hn).1 ?_ _
      rfl
  | deleteNode other =>
      obtain ⟨-, rfl⟩ := perform_deleteNode.1 hr
      have hother : other ≠ name := fun heq => hne (heq ▸ rfl)
      rw [keying, Std.ExtTreeMap.getElem?_erase, if_neg (by simpa using hother), keying]
  | connect source dest force =>
      obtain ⟨-, -, -, rfl⟩ := perform_connect.1 hr
      rfl
  | disconnect dest =>
      obtain ⟨-, rfl⟩ := perform_disconnect.1 hr
      rfl
  | clearSelection =>
      obtain rfl := perform_clearSelection.1 hr
      rfl
  | getAttribute p | isLocked p | listConstructs p | listIncoming p =>
      obtain rfl := eq_of_asks rfl hr
      rfl

/-- A request either creates one key on a node or none. -/
theorem keysOn_cases (r : Request) (name : String) :
    (∃ key, r = .createKeyframe name key ∧ r.keysOn name = [key]) ∨ r.keysOn name = [] := by
  cases r with
  | createKeyframe curve key =>
      by_cases hcurve : curve = name
      · exact .inl ⟨key, by rw [hcurve], by rw [Request.keysOn, if_pos hcurve]⟩
      · exact .inr (if_neg hcurve)
  | _ => exact .inr rfl

namespace KeyHistory

/-- **A curve has the keys of its history.** -/
theorem keying_eq (h : g.KeyHistory name created) :
    g.keying name = some (.primitive .rampCurve, Curve.keysOf created) := by
  induction h with
  | addNode g => simp [keying, Graph.addNode, Node.ofKind, Curve.keysOf]
  | createNode hr =>
      obtain ⟨rfl, rfl⟩ := perform_createNode.1 hr
      simp [keying, Node.ofKind, Curve.keysOf]
  | @request g g' created r reply _ hr hne ih =>
      rcases keysOn_cases r name with ⟨key, rfl, hkeys⟩ | hkeys
      · rw [keying_createKeyframe hr, ih, hkeys, Curve.keysOf_concat,
          Option.map_some]
      · obtain ⟨n, hn, -⟩ := Option.map_eq_some_iff.1 ih
        rw [hkeys, List.append_nil, keying_perform (mem_nodes_of_eq_some hn) hr hne hkeys, ih]
  | @addOther g _ _ kind _ hother ih => exact (keying_putNode_of_ne hother _ g.journal).trans ih
  | @addAttribute g _ p v _ ih =>
      rw [Graph.addAttribute]
      split
      · next n hn =>
        refine (keying_putNode hn ?_ g.journal).trans ih
        rfl
      · exact ih
  | @lock g _ _ p _ hl ih =>
      simp only [Graph.lock, bind_eq_ok_iff] at hl
      obtain ⟨n, hn, hl⟩ := hl
      cases hl
      refine (keying_putNode (checkAttr_eq_ok_iff.1 hn).1 ?_ g.journal).trans ih
      rfl
  | addConnection _ hc ih =>
      simp only [Graph.addConnection, bind_eq_ok_iff] at hc
      obtain ⟨m, -, n, -, hc⟩ := hc
      cases hc
      exact ih
  | select _ hs ih =>
      simp only [Graph.select, bind_eq_ok_iff] at hs
      obtain ⟨n, -, hs⟩ := hs
      cases hs
      exact ih
  | clearJournal _ ih => exact ih

/-- The creation of a key on a curve is never refused. -/
theorem createKeyframe_ne_error (h : g.KeyHistory name created) (key : Keyframe Float)
    (e : GraphError) : g.perform (.createKeyframe name key) ≠ .error e := by
  obtain ⟨n, hn, hkind⟩ := Option.map_eq_some_iff.1 h.keying_eq
  have hcurve : g.checkCurve name = .ok n :=
    checkCurve_eq_ok_iff.2 ⟨hn, congrArg Prod.fst hkind⟩
  rw [perform_createKeyframe.2 ⟨n, hcurve, rfl⟩]
  simp

/-- **What requests add to the history of a curve** is the keys that they create on it. -/
theorem afterRequests {rs : List Request} (h : g.KeyHistory name created)
    (hdelete : .deleteNode name ∉ rs) :
    (g.afterRequests rs).KeyHistory name (created ++ rs.flatMap (Request.keysOn name)) := by
  induction rs generalizing g created with
  | nil => simpa [Graph.afterRequests] using h
  | cons r rs ih =>
      obtain ⟨hr, hrs⟩ := not_or.1 (mt List.mem_cons.2 hdelete)
      have hstep : (host.respond g r).2.KeyHistory name (created ++ r.keysOn name) := by
        simp only [host_respond]
        cases hperform : g.perform r with
        | ok out => exact h.request hperform (Ne.symm hr)
        | error e =>
            -- What is refused creates no key on the curve, and it leaves no trace.
            rcases keysOn_cases r name with ⟨key, rfl, -⟩ | hkeys
            · exact absurd hperform (h.createKeyframe_ne_error key e)
            · rwa [hkeys, List.append_nil]
      rw [List.flatMap_cons, ← List.append_assoc]
      exact ih hstep hrs

end KeyHistory

/-- **The keys of a curve form a sorted map.** Let any keys whose positions are numbers be created
on a curve, whatever else happens to the graph meanwhile. Then the positions of its keys increase,
and its keys are exactly the last ones that were created at their positions. So a curve on which
the last key at each position is the same has the same keys, in whatever order they were created
and whatever keys they replaced. -/
theorem keys_form_sorted_map (h : g.KeyHistory name created)
    (hplaced : ∀ key ∈ created, key.position.isNaN = false) :
    ∃ curve, g.curve? name = some curve ∧
      curve.keys.Pairwise (fun a b => a.position < b.position) ∧
      (∀ key, key ∈ curve.keys ↔ Curve.lastAt created key.position = some key) ∧
      ∀ (g' : Graph) (name' : String) (created' : List (Keyframe Float)),
        g'.KeyHistory name' created' → (∀ key ∈ created', key.position.isNaN = false) →
        (∀ x, Curve.lastAt created' x = Curve.lastAt created x) →
        ∃ curve', g'.curve? name' = some curve' ∧ curve'.keys = curve.keys := by
  have hcurve : ∀ {g : Graph} {name : String} {created : List (Keyframe Float)},
      g.KeyHistory name created →
      ∃ curve, g.curve? name = some curve ∧ curve.keys = Curve.keysOf created := by
    intro g name created h
    obtain ⟨n, hn, hkeys⟩ := Option.map_eq_some_iff.1 h.keying_eq
    exact ⟨n.curve, by rw [curve?, hn, Option.map_some], congrArg Prod.snd hkeys⟩
  obtain ⟨-, hordered, hmem⟩ := Curve.keysOf_sortedMap hplaced
  obtain ⟨curve, hsome, hkeys⟩ := hcurve h
  rw [← hkeys] at hordered hmem
  refine ⟨curve, hsome, hordered, hmem, fun g' name' created' h' hplaced' hlast => ?_⟩
  obtain ⟨curve', hsome', hkeys'⟩ := hcurve h'
  refine ⟨curve', hsome', ?_⟩
  rw [hkeys', hkeys, Curve.keysOf_eq_of_lastAt hplaced hplaced' hlast]

/-- Keys in disorder: the first and the last are at one position, and so are the two zeros. -/
def scatteredKeys : List (Keyframe Float) :=
  [⟨2.0, 1.0⟩, ⟨-0.0, 5.0⟩, ⟨0.0, 7.0⟩, ⟨2.0, 9.0⟩]

/-- A ramp on which keys are created, after a write that is refused. -/
def rampWith (keys : List (Keyframe Float)) : Graph :=
  (Graph.empty.addNode "ramp" (.primitive .rampCurve)).afterRequests
    (.setAttribute ⟨"ramp", "speed"⟩ (.double 1.0) :: keys.map (.createKeyframe "ramp"))

/-- The later of two keys at a position counts, the zeros being one position, and a key that is
replaced leaves no trace. -/
theorem keys_form_sorted_map_scattered :
    ∃ curve, (rampWith scatteredKeys).curve? "ramp" = some curve ∧
      curve.keys.Pairwise (fun a b => a.position < b.position) ∧
      ⟨0.0, 7.0⟩ ∈ curve.keys ∧ ⟨-0.0, 5.0⟩ ∉ curve.keys ∧
      ⟨2.0, 9.0⟩ ∈ curve.keys ∧ ⟨2.0, 1.0⟩ ∉ curve.keys ∧
      ∃ curve', (rampWith (⟨2.0, 3.0⟩ :: scatteredKeys)).curve? "ramp" = some curve' ∧
        curve'.keys = curve.keys := by
  have h : (rampWith scatteredKeys).KeyHistory "ramp" scatteredKeys :=
    (KeyHistory.addNode Graph.empty).afterRequests (by decide)
  have h' : (rampWith (⟨2.0, 3.0⟩ :: scatteredKeys)).KeyHistory "ramp"
      (⟨2.0, 3.0⟩ :: scatteredKeys) :=
    (KeyHistory.addNode Graph.empty).afterRequests (by decide)
  obtain ⟨curve, hsome, hordered, hmem, hsame⟩ := keys_form_sorted_map h (by decide)
  refine ⟨curve, hsome, hordered, (hmem _).2 (by decide), mt (hmem _).1 (by decide),
    (hmem _).2 (by decide), mt (hmem _).1 (by decide), hsame _ _ _ h' (by decide) fun x => ?_⟩
  by_cases hx : ((2.0 : Float) == x) = true
  · simp [scatteredKeys, Curve.lastAt, List.filter_cons, hx]
  · simp [scatteredKeys, Curve.lastAt, List.filter_cons, hx]

end Graph

end RigScript
