/-
# Offsets, positions and changes

A client names a place of a text by its line and its character; the store counts characters from
the beginning.  The position of an offset is read off the text in front of it, and the offset of a
position is found by walking past line feeds from the beginning.  The two are inverse at every
offset but those between the two characters of a line break: no position means such an offset, and
it is moved in front of the break.

A change between the positions of two offsets therefore replaces exactly what is between them, and
the store keeps all other documents as they are.
-/

import Dragonstone.Store

namespace Dragonstone

/-- The offset lies between the two characters of a line break. -/
def SplitsBreak (text : Text) (k : Nat) : Prop :=
  (text.take k).getLast? = some '\r' ∧ (text.drop k).head? = some '\n'

instance (text : Text) (k : Nat) : Decidable (SplitsBreak text k) :=
  inferInstanceAs (Decidable (_ ∧ _))

/-- A text without carriage returns has no such offsets. -/
theorem not_splitsBreak_of_not_mem {text : Text} (plain : '\r' ∉ text) (k : Nat) :
    ¬ SplitsBreak text k :=
  fun h => plain (List.mem_of_mem_take (List.mem_of_getLast? h.1))

/-! ### The line that an offset is on -/

/-- The text behind the last line feed. -/
def lastPart (s : Text) : Text :=
  (s.reverse.takeWhile (· != '\n')).reverse

/-- The text up to the last line feed, which belongs to it. -/
def beforeLastPart (s : Text) : Text :=
  (s.reverse.dropWhile (· != '\n')).reverse

theorem beforeLastPart_append_lastPart (s : Text) : beforeLastPart s ++ lastPart s = s := by
  rw [beforeLastPart, lastPart, ← List.reverse_append, List.takeWhile_append_dropWhile,
    List.reverse_reverse]

theorem not_mem_lastPart (s : Text) : '\n' ∉ lastPart s := by
  intro h
  rw [lastPart, List.mem_reverse] at h
  simpa using List.all_eq_true.mp List.all_takeWhile _ h

theorem getLast?_beforeLastPart {s : Text} {c : Char}
    (h : (beforeLastPart s).getLast? = some c) : c = '\n' := by
  rw [beforeLastPart, List.getLast?_reverse] at h
  have stop := List.head?_dropWhile_not (· != '\n') s.reverse
  rw [h] at stop
  simpa using stop

theorem count_lastPart (s : Text) : (lastPart s).count '\n' = 0 :=
  List.count_eq_zero.mpr (not_mem_lastPart s)

/-- A walk past as many line feeds as there are in whole lines ends behind these lines. -/
theorem afterFeeds?_append {whole : Text} (isWhole : ∀ c, whole.getLast? = some c → c = '\n')
    (rest : Text) : afterFeeds? (whole.count '\n') (whole ++ rest) = some rest := by
  induction whole with
  | nil => exact afterFeeds?.eq_1 rest
  | cons c whole ih =>
      have later : ∀ d, whole.getLast? = some d → d = '\n' := by
        intro d h
        apply isWhole d
        rw [List.getLast?_cons, h]
        rfl
      by_cases feed : c = '\n'
      · subst feed
        rw [List.count_cons_self, List.cons_append, afterFeeds?,
          if_pos (beq_self_eq_true _)]
        exact ih later
      · -- The line that begins here ends in a feed, so there is one to walk past.
        have more : '\n' ∈ whole := by
          cases last : whole.getLast? with
          | none =>
              rw [List.getLast?_eq_none_iff] at last
              subst last
              exact absurd (isWhole c rfl) feed
          | some d => exact later d last ▸ List.mem_of_getLast? last
        obtain ⟨n, count⟩ : ∃ n, whole.count '\n' = n + 1 :=
          Nat.exists_eq_add_one.mpr (List.count_pos_iff.mpr more)
        rw [List.count_cons_of_ne (fun h => feed h), count, List.cons_append, afterFeeds?,
          if_neg (by simpa using feed), ← count]
        exact ih later

/-- A part of a line reaches no further than the line, unless a line break is split behind it. -/
theorem length_le_firstLineLength {front after : Text} (feed : '\n' ∉ front)
    (whole : ¬ (front.getLast? = some '\r' ∧ after.head? = some '\n')) :
    front.length ≤ firstLineLength (front ++ after) := by
  have all : ∀ c ∈ front, (c != '\n') = true := fun c h => by
    simpa using fun e : c = '\n' => feed (e ▸ h)
  have line : (front ++ after).takeWhile (· != '\n') = front ++ after.takeWhile (· != '\n') :=
    List.takeWhile_append_of_pos all
  rw [firstLineLength, line]
  cases more : after.takeWhile (· != '\n') with
  | cons c behind =>
      simp only [List.length_append, List.length_cons]
      split <;> omega
  | nil =>
      rw [List.append_nil]
      split
      case isFalse => exact Nat.le_refl _
      case isTrue h =>
        simp only [Bool.and_eq_true, decide_eq_true_eq, beq_iff_eq, List.length_append] at h
        cases after with
        | nil => exact absurd h.1 (by simp)
        | cons c behind =>
            have feed' : c = '\n' := by
              by_cases other : c = '\n'
              · exact other
              · simp [other] at more
            exact absurd ⟨h.2, by rw [feed']; rfl⟩ whole

/-! ### Offsets and positions -/

theorem positionAt_append (before after : Text) :
    positionAt (before ++ after) before.length =
      ⟨before.count '\n', (lastPart before).length⟩ := by
  simp only [positionAt, Int.toNat_natCast, List.take_left, lastPart, List.length_reverse]

/-- The position of the end of a text's beginning means the same column of the same line, as far as
this line reaches. -/
theorem offsetOf_positionAt_eq_min (before after : Text) :
    offsetOf (before ++ after) (positionAt (before ++ after) before.length) =
      (beforeLastPart before).length +
        min (lastPart before).length (firstLineLength (lastPart before ++ after)) := by
  have parts := beforeLastPart_append_lastPart before
  have number : before.count '\n' = (beforeLastPart before).count '\n' := by
    calc before.count '\n'
        = (beforeLastPart before ++ lastPart before).count '\n' := by rw [parts]
      _ = (beforeLastPart before).count '\n' := by
        rw [List.count_append, count_lastPart, Nat.add_zero]
  have found : afterFeeds? (before.count '\n') (before ++ after) =
      some (lastPart before ++ after) := by
    calc afterFeeds? (before.count '\n') (before ++ after)
        = afterFeeds? ((beforeLastPart before).count '\n')
            (beforeLastPart before ++ (lastPart before ++ after)) := by
          rw [number, ← List.append_assoc, parts]
      _ = some (lastPart before ++ after) :=
          afterFeeds?_append (fun _ h => getLast?_beforeLastPart h) _
  have length : before.length = (beforeLastPart before).length + (lastPart before).length := by
    rw [← List.length_append, parts]
  rw [positionAt_append, offsetOf, Int.toNat_natCast, found]
  simp only [List.length_append]
  omega

/-- The position of the end of a text's beginning means its length, unless a line break is split
there. -/
theorem offsetOf_positionAt_append {before after : Text}
    (whole : ¬ (before.getLast? = some '\r' ∧ after.head? = some '\n')) :
    offsetOf (before ++ after) (positionAt (before ++ after) before.length) = before.length := by
  have parts := beforeLastPart_append_lastPart before
  have reach : (lastPart before).length ≤ firstLineLength (lastPart before ++ after) := by
    refine length_le_firstLineLength (not_mem_lastPart before) fun h => whole ⟨?_, h.2⟩
    rw [← parts, List.getLast?_append, h.1]
    rfl
  have length : before.length = (beforeLastPart before).length + (lastPart before).length := by
    rw [← List.length_append, parts]
  rw [offsetOf_positionAt_eq_min, length]
  omega

/-- The last part of a text that ends in a carriage return ends in it too. -/
theorem getLast?_lastPart {s : Text} (last : s.getLast? = some '\r') :
    (lastPart s).getLast? = some '\r' := by
  rw [← beforeLastPart_append_lastPart s, List.getLast?_append, Option.or_eq_some_iff] at last
  obtain here | ⟨_, before⟩ := last
  · exact here
  · cases getLast?_beforeLastPart before

/-- A line that ends in a carriage return is cut in front of it where a line feed follows. -/
theorem firstLineLength_append_feed {line : Text} (feed : '\n' ∉ line)
    (last : line.getLast? = some '\r') (behind : Text) :
    firstLineLength (line ++ '\n' :: behind) = line.length - 1 := by
  have here : (line ++ '\n' :: behind).takeWhile (· != '\n') = line := by
    rw [List.takeWhile_append_of_pos, List.takeWhile_cons_of_neg (by decide), List.append_nil]
    intro c member
    simpa using fun isFeed : c = '\n' => feed (isFeed ▸ member)
  rw [firstLineLength, here, last]
  simp

/-- The position between the two characters of a line break means the place in front of it. -/
theorem offsetOf_positionAt_append_split {before after : Text}
    (last : before.getLast? = some '\r') (first : after.head? = some '\n') :
    offsetOf (before ++ after) (positionAt (before ++ after) before.length) =
      before.length - 1 := by
  obtain ⟨rest, rfl⟩ := List.head?_eq_some_iff.mp first
  have lastR := getLast?_lastPart last
  have reach : firstLineLength (lastPart before ++ '\n' :: rest) =
      (lastPart before).length - 1 :=
    firstLineLength_append_feed (not_mem_lastPart before) lastR rest
  have inside : (lastPart before).length ≠ 0 := by
    rw [Ne, List.length_eq_zero_iff]
    intro empty
    rw [empty] at lastR
    cases lastR
  have length : before.length = (beforeLastPart before).length + (lastPart before).length := by
    rw [← List.length_append, beforeLastPart_append_lastPart]
  rw [offsetOf_positionAt_eq_min, reach, length]
  omega

/-- The position of an offset means this offset, unless it splits a line break. -/
theorem offsetOf_positionAt {text : Text} {k : Nat} (inside : k ≤ text.length)
    (whole : ¬ SplitsBreak text k) : offsetOf text (positionAt text k) = k := by
  have h := offsetOf_positionAt_append whole
  rwa [List.take_append_drop, List.length_take_of_le inside] at h

/-! ### Changes -/

/-- A change between the positions of two offsets replaces what is between them. -/
theorem replaceRange_positionAt {text : Text} {i j : Nat} (le : i ≤ j) (inside : j ≤ text.length)
    (wholeStart : ¬ SplitsBreak text i) (wholeStop : ¬ SplitsBreak text j) (replacement : Text) :
    replaceRange text ⟨positionAt text i, positionAt text j⟩ replacement =
      text.take i ++ replacement ++ text.drop j := by
  have start : offsetOf text (positionAt text i) = i :=
    offsetOf_positionAt (Nat.le_trans le inside) wholeStart
  have stop : offsetOf text (positionAt text j) = j := offsetOf_positionAt inside wholeStop
  have later : max (i : Int) (j : Int) = j := by omega
  simp only [replaceRange, start, stop, later, upTo_natCast, fromOn_natCast]

/-- Round trip of all offsets: the position of an offset means this offset, or the one in front of
the line break that it splits. -/
theorem offsetOf_positionAt_eq {text : Text} {k : Nat} (inside : k ≤ text.length) :
    offsetOf text (positionAt text k) = if SplitsBreak text k then (k : Int) - 1 else k := by
  by_cases split : SplitsBreak text k
  · have h := offsetOf_positionAt_append_split split.1 split.2
    rw [List.take_append_drop, List.length_take_of_le inside] at h
    rw [if_pos split, h]
  · rw [if_neg split, offsetOf_positionAt inside split]

/-- A change of a stored document between the positions of two offsets, neither of which splits a
line break, puts the replacement in the place of what is between the offsets.  This is the text that
the change gives and that the store holds afterwards.  No other document changes, comes or goes.
The position of an offset means this offset again, wherever it does not split a line break, and
there the place in front of the break. -/
theorem applyChange_splices {store : Store} {uri : String} {text : Text}
    (stored : store.get? uri = some text) {i j : Nat} (le : i ≤ j) (inside : j ≤ text.length)
    (wholeStart : ¬ SplitsBreak text i) (wholeStop : ¬ SplitsBreak text j) (replacement : Text) :
    let range : Range := ⟨positionAt text i, positionAt text j⟩
    let spliced := text.take i ++ replacement ++ text.drop j
    store.changed uri range replacement = spliced ∧
      (store.applyChange uri range replacement).get? uri = some spliced ∧
      (∀ other ≠ uri, (store.applyChange uri range replacement).get? other = store.get? other) ∧
      (store.applyChange uri range replacement).keys = store.keys ∧
      ∀ k ≤ text.length,
        offsetOf text (positionAt text k) = if SplitsBreak text k then (k : Int) - 1 else k := by
  intro range spliced
  have changed : store.changed uri range replacement = spliced := by
    rw [Store.changed, stored]
    exact replaceRange_positionAt le inside wholeStart wholeStop replacement
  have known : uri ∈ store.keys := by
    rw [KeyMap.mem_keys_iff, stored]
    rfl
  refine ⟨changed, ?_, ?_, KeyMap.keys_put_of_mem known _, fun k => offsetOf_positionAt_eq⟩
  · rw [Store.applyChange, KeyMap.get?_put, if_pos rfl, changed]
  · intro other different
    rw [Store.applyChange, KeyMap.get?_put, if_neg different]

/-- A change that begins behind a line break and ends behind a lone carriage return. -/
theorem applyChange_splices_behind_break :
    let store : Store := ⟨[("b", "q".toList), ("a", "x\r\ny\rz\n".toList)]⟩
    let text := "x\r\ny\rz\n".toList
    let range : Range := ⟨positionAt text 3, positionAt text 5⟩
    store.get? "a" = some text ∧ ¬ SplitsBreak text 3 ∧ ¬ SplitsBreak text 5 ∧
      (store.applyChange "a" range "uv\n".toList).get? "a" = some "x\r\nuv\nz\n".toList ∧
      (store.applyChange "a" range "uv\n".toList).get? "b" = some "q".toList := by
  intro store text range
  have stored : store.get? "a" = some text := by decide
  have start : ¬ SplitsBreak text 3 := by decide
  have stop : ¬ SplitsBreak text 5 := by decide
  obtain ⟨-, here, others, -⟩ :=
    applyChange_splices stored (by decide) (by decide) start stop "uv\n".toList
  exact ⟨stored, start, stop, here, others "b" (by decide)⟩

end Dragonstone
