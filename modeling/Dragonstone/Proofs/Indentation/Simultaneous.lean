/-
# Edits made at once

Edits are applied one after another, and each finds its line as the edits before it left it.  What
they come to can be said without any order: at every column of the old line stand the replacements
of the edits that begin there, and then the character, unless an edit replaces it.

The two agree for edits that keep clear of each other, because they are applied from the end of the
document to its start: an edit still finds its line as it was up to the last column it needs.  So
the order in which the edits are listed does not matter.
-/

import Dragonstone.Proofs.Indentation.Applied
import Mathlib.Data.List.Induction

namespace Dragonstone

/-! ### All edits of a line at once -/

/-- The replacements of the edits that begin at a column. -/
def insertedAt (edits : List Edit) (column : Nat) : Text :=
  (edits.filter fun e : Edit => e.range.start.character = column).flatMap Edit.replacement

/-- An edit replaces the character at a column. -/
def isReplacedAt (edits : List Edit) (column : Nat) : Bool :=
  edits.any fun e : Edit => e.range.start.character ≤ column && column < e.range.stop.character

/-- A line from a column on with edits made at once. -/
def rewriteFrom (edits : List Edit) (column : Nat) : Line → Line
  | [] => insertedAt edits column
  | c :: rest =>
    insertedAt edits column ++ (if isReplacedAt edits column then [] else [c]) ++
      rewriteFrom edits (column + 1) rest

/-- The edits of one line. -/
def editsOn (n : Nat) (edits : List Edit) : List Edit :=
  edits.filter fun e : Edit => e.range.start.line = n

/-- Lines with edits made at once. -/
def rewriteLines (edits : List Edit) (ls : List Line) : List Line :=
  ls.mapIdx fun n line => rewriteFrom (editsOn n edits) 0 line

/-- Two edits keep clear of each other: on the same line they begin at different columns, and one
ends where the other begins or before.  An insertion inside what the other replaces is not clear
of it. -/
def Edit.Apart (a b : Edit) : Prop :=
  a.range.start.line = b.range.start.line →
    a.range.start.character ≠ b.range.start.character ∧
      (a.range.stop.character ≤ b.range.start.character ∨
        b.range.stop.character ≤ a.range.start.character)

instance (a b : Edit) : Decidable (a.Apart b) :=
  inferInstanceAs (Decidable (_ → _))

/-- Edits that can be made at once: on a line they replace stretches of this line and keep clear of
each other.  Nothing is asked of edits past the last line but that they are there. -/
structure AreCompatible (ls : List Line) (edits : List Edit) : Prop where
  line : ∀ e ∈ edits, 0 ≤ e.range.start.line
  columns : ∀ e ∈ edits, ∀ line ∈ ls[e.range.start.line.toNat]?,
    0 ≤ e.range.start.character ∧ e.range.start.character ≤ e.range.stop.character ∧
      e.range.stop.character ≤ line.length
  apart : edits.Pairwise fun a b : Edit => a.range.start.line < ls.length → a.Apart b

/-! ### One more edit in front -/

theorem insertedAt_append (a b : List Edit) (column : Nat) :
    insertedAt (a ++ b) column = insertedAt a column ++ insertedAt b column := by
  simp only [insertedAt, List.filter_append, List.flatMap_append]

theorem insertedAt_eq_nil {edits : List Edit} {column : Nat}
    (elsewhere : ∀ e ∈ edits, e.range.start.character ≠ column) :
    insertedAt edits column = [] := by
  have noneHere : (edits.filter fun e : Edit => e.range.start.character = column) = [] := by
    rw [List.filter_eq_nil_iff]
    intro e member
    simpa using elsewhere e member
  rw [insertedAt, noneHere, List.flatMap_nil]

theorem isReplacedAt_append_singleton (edits : List Edit) (e : Edit) (column : Nat) :
    isReplacedAt (edits ++ [e]) column =
      (isReplacedAt edits column ||
        (e.range.start.character ≤ column && column < e.range.stop.character)) := by
  simp only [isReplacedAt, List.any_append, List.any_cons, List.any_nil, Bool.or_false]

theorem isReplacedAt_eq_false {edits : List Edit} {column : Nat}
    (later : ∀ e ∈ edits, (column : Int) < e.range.start.character) :
    isReplacedAt edits column = false := by
  rw [isReplacedAt, List.any_eq_false]
  intro e member
  have := later e member
  simp
  omega

/-- A line is left as it was up to the first edit. -/
theorem rewriteFrom_eq_take_append {edits : List Edit} {column k : Nat} {rest : Line}
    (later : ∀ e ∈ edits, (column + k : Int) ≤ e.range.start.character) (hk : k ≤ rest.length) :
    rewriteFrom edits column rest =
      rest.take k ++ rewriteFrom edits (column + k) (rest.drop k) := by
  induction k generalizing column rest with
  | zero => rfl
  | succ k ih =>
      cases rest with
      | nil => cases hk
      | cons c rest =>
          have hlater : ∀ e ∈ edits, (column : Int) < e.range.start.character := by
            intro e member
            have := later e member
            omega
          have hrest : rewriteFrom edits (column + 1) rest =
              rest.take k ++ rewriteFrom edits (column + 1 + k) (rest.drop k) := by
            refine ih ?_ (Nat.le_of_succ_le_succ hk)
            intro e member
            have := later e member
            omega
          rw [rewriteFrom, insertedAt_eq_nil (fun e member => Int.ne_of_gt (hlater e member)),
            isReplacedAt_eq_false hlater, hrest, Nat.add_right_comm, Nat.add_assoc]
          rfl

theorem rewriteFrom_zero_eq_take_append {edits : List Edit} {k : Nat} {line : Line}
    (later : ∀ e ∈ edits, (k : Int) ≤ e.range.start.character) (hk : k ≤ line.length) :
    rewriteFrom edits 0 line = line.take k ++ rewriteFrom edits k (line.drop k) := by
  have hfront : rewriteFrom edits 0 line =
      line.take k ++ rewriteFrom edits (0 + k) (line.drop k) :=
    rewriteFrom_eq_take_append (by simpa using later) hk
  rwa [Nat.zero_add] at hfront

section

-- The edit `e` replaces the columns from `i` to `j`, and the others begin behind these.
variable {edits : List Edit} {e : Edit} {i j : Nat} (start : e.range.start.character = i)
  (stop : e.range.stop.character = j)
  (later : ∀ a ∈ edits, (i : Int) < a.range.start.character ∧ (j : Int) ≤ a.range.start.character)

include start

theorem insertedAt_singleton_of_lt {column : Nat} (hi : i < column) :
    insertedAt [e] column = [] := by
  apply insertedAt_eq_nil
  simp only [List.mem_singleton, forall_eq, start]
  omega

include later

theorem insertedAt_append_singleton {column : Nat} (hi : i ≤ column) :
    insertedAt (edits ++ [e]) column = insertedAt [e] column ++ insertedAt edits column := by
  rw [insertedAt_append]
  rcases Nat.eq_or_lt_of_le hi with rfl | hlt
  · rw [insertedAt_eq_nil fun a member => Int.ne_of_gt (later a member).1, List.append_nil,
      List.nil_append]
  · rw [insertedAt_singleton_of_lt start hlt, List.append_nil, List.nil_append]

include stop

/-- From its start on, an edit in front of others puts its replacement and skips what it replaces;
what follows is left to the others. -/
theorem rewriteFrom_append_singleton {column : Nat} {rest : Line} (hi : i ≤ column)
    (hj : j - column ≤ rest.length) :
    rewriteFrom (edits ++ [e]) column rest =
      insertedAt [e] column ++ rewriteFrom edits (max column j) (rest.drop (j - column)) := by
  induction rest generalizing column with
  | nil =>
      have hj : j ≤ column := by simpa [Nat.sub_eq_zero_iff_le] using hj
      rw [rewriteFrom, insertedAt_append_singleton start later hi, Nat.max_eq_left hj,
        List.drop_nil, rewriteFrom]
  | cons c rest ih =>
      rw [List.length_cons] at hj
      have hnext : rewriteFrom (edits ++ [e]) (column + 1) rest =
          rewriteFrom edits (max (column + 1) j) (rest.drop (j - (column + 1))) := by
        rw [ih (Nat.le_succ_of_le hi) (by omega),
          insertedAt_singleton_of_lt start (Nat.lt_succ_of_le hi), List.nil_append]
      rw [rewriteFrom, insertedAt_append_singleton start later hi, hnext,
        isReplacedAt_append_singleton, start, stop]
      by_cases hskip : column < j
      · -- The edit replaces this character, and the others begin behind it.
        have hlater : ∀ a ∈ edits, a.range.start.character ≠ column := by
          intro a member
          have := later a member
          omega
        have hdrop : (c :: rest).drop (j - column) = rest.drop (j - (column + 1)) := by
          rw [← Nat.sub_sub, ← Nat.succ_pred_eq_of_pos (Nat.sub_pos_of_lt hskip)]
          rfl
        have hcovers : (decide ((i : Int) ≤ column) && decide ((column : Int) < j)) = true := by
          simpa using ⟨hi, hskip⟩
        rw [insertedAt_eq_nil hlater, hcovers, Bool.or_true, if_pos rfl, hdrop,
          Nat.max_eq_right hskip, Nat.max_eq_right (Nat.le_of_lt hskip), List.append_nil,
          List.append_nil]
      · have hj : j ≤ column := Nat.le_of_not_lt hskip
        have hcovers : (decide ((i : Int) ≤ column) && decide ((column : Int) < j)) = false := by
          simp [hj]
        rw [hcovers, Bool.or_false, Nat.sub_eq_zero_of_le hj,
          Nat.sub_eq_zero_of_le (Nat.le_succ_of_le hj), Nat.max_eq_left hj,
          Nat.max_eq_left (Nat.le_succ_of_le hj), List.drop_zero, List.drop_zero, rewriteFrom,
          List.append_assoc, List.append_assoc, List.append_assoc]

/-- An edit in front of others finds what it needs of the line as it was. -/
theorem spliceLine_rewriteFrom {line : Line} (hij : i ≤ j) (hj : j ≤ line.length) :
    spliceLine (rewriteFrom edits 0 line) e = rewriteFrom (edits ++ [e]) 0 line := by
  have hothers : rewriteFrom edits 0 line = line.take j ++ rewriteFrom edits j (line.drop j) :=
    rewriteFrom_zero_eq_take_append (fun a member => (later a member).2) hj
  have hall : rewriteFrom (edits ++ [e]) 0 line =
      line.take i ++ rewriteFrom (edits ++ [e]) i (line.drop i) := by
    refine rewriteFrom_zero_eq_take_append ?_ (Nat.le_trans hij hj)
    intro a member
    rcases List.mem_append.mp member with other | own
    · exact Int.le_of_lt (later a other).1
    · rw [List.mem_singleton.mp own]
      exact Int.le_of_eq start.symm
  have hrest : rewriteFrom (edits ++ [e]) i (line.drop i) =
      e.replacement ++ rewriteFrom edits j (line.drop j) := by
    have hown : insertedAt [e] i = e.replacement := by
      simp [insertedAt, start]
    rw [rewriteFrom_append_singleton start stop later (Nat.le_refl i)
        (by rw [List.length_drop]; omega), hown, Nat.max_eq_right hij, List.drop_drop,
      Nat.add_sub_cancel' hij]
  have hfront : (line.take j ++ rewriteFrom edits j (line.drop j)).take i = line.take i := by
    rw [List.take_append_of_le_length (by rw [List.length_take]; omega), List.take_take,
      Nat.min_eq_left hij]
  have hback : (line.take j ++ rewriteFrom edits j (line.drop j)).drop j =
      rewriteFrom edits j (line.drop j) := by
    rw [List.drop_append_of_le_length (by rw [List.length_take]; omega)]
    simp
  rw [spliceLine, start, stop, upTo_natCast, fromOn_natCast, hothers, hfront, hback, hall, hrest,
    List.append_assoc]

end

/-! ### All lines -/

theorem mem_editsOn {n : Nat} {edits : List Edit} {e : Edit} :
    e ∈ editsOn n edits ↔ e ∈ edits ∧ e.range.start.line = n := by
  simp [editsOn]

theorem editsOn_append_singleton_of_eq {n : Nat} (edits : List Edit) {e : Edit}
    (line : e.range.start.line = n) : editsOn n (edits ++ [e]) = editsOn n edits ++ [e] := by
  simp [editsOn, line]

theorem editsOn_append_singleton_of_ne {n : Nat} (edits : List Edit) {e : Edit}
    (line : e.range.start.line ≠ n) : editsOn n (edits ++ [e]) = editsOn n edits := by
  simp [editsOn, line]

@[simp] theorem rewriteFrom_nil (column : Nat) (line : Line) :
    rewriteFrom [] column line = line := by
  induction line generalizing column with
  | nil => rfl
  | cons c rest ih => exact congrArg (List.cons c) (ih (column + 1))

theorem length_rewriteLines (edits : List Edit) (ls : List Line) :
    (rewriteLines edits ls).length = ls.length :=
  List.length_mapIdx

theorem getElem?_rewriteLines (edits : List Edit) (ls : List Line) (n : Nat) :
    (rewriteLines edits ls)[n]? = ls[n]?.map (rewriteFrom (editsOn n edits) 0) :=
  List.getElem?_mapIdx

theorem rewriteLines_congr {edits other : List Edit} {ls : List Line}
    (same : ∀ n line, ls[n]? = some line →
      rewriteFrom (editsOn n edits) 0 line = rewriteFrom (editsOn n other) 0 line) :
    rewriteLines edits ls = rewriteLines other ls := by
  apply List.ext_getElem?
  intro n
  rw [getElem?_rewriteLines, getElem?_rewriteLines]
  cases hline : ls[n]? with
  | none => rfl
  | some line => exact congrArg some (same n line hline)

theorem rewriteLines_nil (ls : List Line) : rewriteLines [] ls = ls := by
  apply List.ext_getElem?
  intro n
  rw [getElem?_rewriteLines]
  cases ls[n]? with
  | none => rfl
  | some line => exact congrArg some (rewriteFrom_nil 0 line)

theorem AreCompatible.of_append {ls : List Line} {a b : List Edit}
    (compatible : AreCompatible ls (a ++ b)) : AreCompatible ls a where
  line e member := compatible.line e (List.mem_append_left b member)
  columns e member := compatible.columns e (List.mem_append_left b member)
  apart := (List.pairwise_append.mp compatible.apart).1

/-- An edit that comes after all others in the order of application, on a line of the text, begins
in front of those on its line and ends before they begin. -/
theorem AreCompatible.later {ls : List Line} {edits : List Edit} {e : Edit}
    (compatible : AreCompatible ls (edits ++ [e]))
    (order : ∀ a ∈ edits, Edit.notBefore a e = true) {n : Nat} {line : Line}
    (hline : ls[n]? = some line) (on_ : e.range.start.line = n) (a : Edit)
    (member : a ∈ editsOn n edits) :
    e.range.start.character < a.range.start.character ∧
      e.range.stop.character ≤ a.range.start.character := by
  obtain ⟨member, same⟩ := mem_editsOn.mp member
  have hinside : a.range.start.line < ls.length := by
    have := (List.getElem?_eq_some_iff.mp hline).1
    omega
  have hwidth : a.range.start.character ≤ a.range.stop.character := by
    refine (compatible.columns a (List.mem_append_left _ member) line ?_).2.1
    rw [same, Int.toNat_natCast]
    exact hline
  have hapart := (List.pairwise_append.mp compatible.apart).2.2 a member e
    (List.mem_singleton_self e) hinside (same.trans on_.symm)
  have horder := Edit.notBefore_iff.mp (order a member)
  omega

/-- On its own line such an edit finds what it needs as it was. -/
theorem AreCompatible.spliceLine_editsOn {ls : List Line} {edits : List Edit} {e : Edit}
    (compatible : AreCompatible ls (edits ++ [e]))
    (order : ∀ a ∈ edits, Edit.notBefore a e = true) {n : Nat} {line : Line}
    (hline : ls[n]? = some line) (on_ : e.range.start.line = n) :
    spliceLine (rewriteFrom (editsOn n edits) 0 line) e =
      rewriteFrom (editsOn n (edits ++ [e])) 0 line := by
  obtain ⟨natural, ordered, fits⟩ := by
    refine compatible.columns e (List.mem_append_right _ (List.mem_singleton_self e)) line ?_
    rw [on_]
    exact hline
  obtain ⟨i, start⟩ := Int.eq_ofNat_of_zero_le natural
  obtain ⟨j, stop⟩ := Int.eq_ofNat_of_zero_le (Int.le_trans natural ordered)
  rw [editsOn_append_singleton_of_eq edits on_]
  refine spliceLine_rewriteFrom start stop ?_ (by omega) (by omega)
  intro a member
  rw [← start, ← stop]
  exact compatible.later order hline on_ a member

/-- Applying one more edit, in front of the others, to the lines with the others made. -/
theorem applyEdit_rewriteLines {ls : List Line} {edits : List Edit} {e : Edit}
    (compatible : AreCompatible ls (edits ++ [e]))
    (order : ∀ a ∈ edits, Edit.notBefore a e = true) :
    applyEdit (rewriteLines edits ls) e = .ok (rewriteLines (edits ++ [e]) ls) := by
  obtain ⟨n, on_⟩ := Int.eq_ofNat_of_zero_le
    (compatible.line e (List.mem_append_right _ (List.mem_singleton_self e)))
  have elsewhere {m : Nat} (hm : n ≠ m) : editsOn m (edits ++ [e]) = editsOn m edits := by
    apply editsOn_append_singleton_of_ne
    omega
  rw [applyEdit, Edit.lineIndex?_of_eq_natCast on_, length_rewriteLines]
  by_cases hinside : n < ls.length
  · rw [if_pos hinside]
    apply congrArg Except.ok
    apply List.ext_getElem?
    intro m
    rw [List.getElem?_modify, getElem?_rewriteLines, getElem?_rewriteLines]
    cases hline : ls[m]? with
    | none => rfl
    | some line =>
        apply congrArg some
        by_cases hm : n = m
        · subst hm
          simpa using compatible.spliceLine_editsOn order hline on_
        · simp only [if_neg hm, elsewhere hm]
  · rw [if_neg hinside]
    refine congrArg Except.ok (rewriteLines_congr fun m line hline => ?_)
    have hm : m < ls.length := (List.getElem?_eq_some_iff.mp hline).1
    rw [elsewhere (by omega)]

/-- Edits applied in the order of application are made at once. -/
theorem foldlM_applyEdit {ls : List Line} {edits : List Edit} (compatible : AreCompatible ls edits)
    (order : edits.Pairwise fun a b => Edit.notBefore a b = true) :
    edits.foldlM applyEdit ls = .ok (rewriteLines edits ls) := by
  induction edits using List.reverseRecOn with
  | nil => exact congrArg Except.ok (rewriteLines_nil ls).symm
  | append_singleton edits e ih =>
      obtain ⟨hothers, -, hlast⟩ := List.pairwise_append.mp order
      have hlater : ∀ a ∈ edits, Edit.notBefore a e = true :=
        fun a member => hlast a member e (List.mem_singleton_self e)
      calc (edits ++ [e]).foldlM applyEdit ls
          = [e].foldlM applyEdit (rewriteLines edits ls) := by
            rw [List.foldlM_append, ih compatible.of_append hothers]
            rfl
        _ = applyEdit (rewriteLines edits ls) e := bind_pure _
        _ = .ok (rewriteLines (edits ++ [e]) ls) := applyEdit_rewriteLines compatible hlater

/-! ### Any order -/

theorem AreCompatible.perm {ls : List Line} {edits other : List Edit}
    (compatible : AreCompatible ls edits) (perm : other.Perm edits) : AreCompatible ls other where
  line e member := compatible.line e (perm.mem_iff.mp member)
  columns e member := compatible.columns e (perm.mem_iff.mp member)
  apart := by
    refine (perm.pairwise_iff ?_).mpr compatible.apart
    intro a b hapart hinside same
    obtain ⟨distinct, clear⟩ := hapart (same ▸ hinside) same.symm
    exact ⟨distinct.symm, clear.symm⟩

section

-- At most one edit begins at a column, so the order of the edits does not show.
variable {a b : List Edit} (perm : a.Perm b)
  (distinct : b.Pairwise fun x y => x.range.start.character ≠ y.range.start.character)

include perm distinct

theorem insertedAt_perm (column : Nat) : insertedAt a column = insertedAt b column := by
  have alone : (b.filter fun e : Edit => e.range.start.character = column).Pairwise
      fun _ _ => False := by
    refine (distinct.filter _).imp_of_mem ?_
    intro x y memX memY hne
    simp only [List.mem_filter, decide_eq_true_eq] at memX memY
    exact hne (memX.2.trans memY.2.symm)
  have same := perm.filter fun e : Edit => e.range.start.character = column
  have alone' : (a.filter fun e : Edit => e.range.start.character = column).Pairwise
      fun _ _ => False :=
    (same.pairwise_iff fun h => h).mpr alone
  rw [insertedAt, insertedAt, same.eq_of_pairwise (fun _ _ _ _ h => h.elim) alone' alone]

theorem rewriteFrom_perm (column : Nat) (line : Line) :
    rewriteFrom a column line = rewriteFrom b column line := by
  induction line generalizing column with
  | nil => exact insertedAt_perm perm distinct column
  | cons c rest ih =>
      have hreplaced : isReplacedAt a column = isReplacedAt b column := perm.any_eq
      rw [rewriteFrom, rewriteFrom, insertedAt_perm perm distinct, hreplaced, ih]

end

theorem rewriteLines_perm {ls : List Line} {edits other : List Edit}
    (compatible : AreCompatible ls edits) (perm : other.Perm edits) :
    rewriteLines other ls = rewriteLines edits ls := by
  refine rewriteLines_congr fun n line hline => rewriteFrom_perm (perm.filter _) ?_ 0 line
  have hinside : n < ls.length := (List.getElem?_eq_some_iff.mp hline).1
  refine (compatible.apart.filter _).imp_of_mem ?_
  intro a b memA memB hapart
  have onA := (mem_editsOn.mp memA).2
  have onB := (mem_editsOn.mp memB).2
  exact (hapart (by omega) (onA.trans onB.symm)).1

/-- The edits that format a text can be made at once. -/
theorem areCompatible_formatEdits (width : Nat) (text : Text) :
    AreCompatible (lines text) (formatEdits width text) where
  line e member := le_line_of_mem_edits member
  columns e member line hline := by
    obtain ⟨i, found, hfound, range⟩ := exists_of_mem_edits member
    rw [range, Nat.zero_add] at hline ⊢
    obtain rfl : found = line := Option.some.inj (hfound.symm.trans hline)
    have hprefix : (leadingSpace found).length ≤ found.length :=
      (List.takeWhile_prefix isSpace).length_le
    exact ⟨Int.le_refl 0, Int.natCast_nonneg _, Int.ofNat_le.mpr hprefix⟩
  apart := (pairwise_edits width 0 {} (lines text)).imp
    fun ordered _ same => absurd same (Int.ne_of_lt ordered)

theorem applyEdits_of_compatible {text : Text} {edits : List Edit}
    (compatible : AreCompatible (lines text) edits) :
    applyEdits text edits = .ok (weave (rewriteLines edits (lines text)) (lineBreaks text)) := by
  have hsorted : (edits.mergeSort Edit.notBefore).Perm edits := List.mergeSort_perm _ _
  rw [applyEdits, foldlM_applyEdit (compatible.perm hsorted) (pairwise_mergeSort_notBefore edits),
    rewriteLines_perm compatible hsorted]
  rfl

/-- Edits that keep clear of each other are made at once: the result has the breaks of the text,
and each line with all its edits made at the columns they name.  Edits past the last line change
nothing, the order of the edits does not matter, and no edits leave the text as it was.

The result is cut at these breaks again unless the edits themselves bring new breaks. -/
theorem applying_edits_makes_them_at_once (text : Text) (edits : List Edit)
    (compatible : AreCompatible (lines text) edits) :
    ∃ out, applyEdits text edits = .ok out ∧
      out = weave (rewriteLines edits (lines text)) (lineBreaks text) ∧
      (∀ other, other.Perm edits → applyEdits text other = .ok out) ∧
      applyEdits text [] = .ok text ∧
      (IsCut (rewriteLines edits (lines text)) (lineBreaks text) →
        lines out = rewriteLines edits (lines text) ∧ lineBreaks out = lineBreaks text) := by
  refine ⟨_, applyEdits_of_compatible compatible, rfl, ?_, ?_, lines_weave⟩
  · intro other perm
    rw [applyEdits_of_compatible (compatible.perm perm), rewriteLines_perm compatible perm]
  · rw [applyEdits, List.mergeSort_nil]
    exact congrArg Except.ok (weave_lines text)

/-- A text with two lines: the edits of the second are listed out of order, and one is past the
end. -/
theorem applying_edits_makes_them_at_once_of_unordered :
    applyEdits "ab\r\ncdef".toList
        [⟨Range.inLine 1 3 4, ['X']⟩, ⟨Range.inLine 7 0 0, ['Z']⟩, ⟨Range.inLine 1 0 2, []⟩,
          ⟨Range.inLine 1 2 2, ['-', '-']⟩] =
      .ok "ab\r\n--eX".toList := by
  obtain ⟨out, applied, made, -⟩ := applying_edits_makes_them_at_once "ab\r\ncdef".toList
    [⟨Range.inLine 1 3 4, ['X']⟩, ⟨Range.inLine 7 0 0, ['Z']⟩, ⟨Range.inLine 1 0 2, []⟩,
      ⟨Range.inLine 1 2 2, ['-', '-']⟩]
    ⟨by decide, by decide, by decide⟩
  rw [applied, made]
  rfl

end Dragonstone
