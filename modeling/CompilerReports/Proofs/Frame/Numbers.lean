import CompilerReports.Proofs.Binary64.Nearest
import CompilerReports.Proofs.FileUrl.EncodedPath

/-! The line and column numbers of frames. A run of digits of any length is kept as the number
nearest to what it writes. So short runs are kept exactly, zeros in front make no difference,
longer runs are in order, and a run that writes too much is kept as the infinite number.
-/

namespace CompilerReports

namespace FrameLine

variable {text : List Char}

theorem Reading.line_parts (reading : Reading text)
    : reading.parts.line = reading.line := by
  unfold parts
  split <;> rfl

theorem Reading.column_parts (reading : Reading text)
    : reading.parts.column = reading.column := by
  unfold parts
  split <;> rfl

/-- What stands for the numbers of a frame line are runs of digits. -/
theorem isRun_of_ofLine? {parts : FrameLine} (found : ofLine? text = some parts)
    : IsRun parts.line ∧ IsRun parts.column := by
  obtain ⟨reading⟩ : Nonempty (Reading text) := by
    by_contra unread
    rw [ofLine?_eq_none_iff.mpr unread] at found
    cases found
  obtain rfl := Option.some.inj (reading.ofLine?_eq.symm.trans found)
  rw [reading.line_parts, reading.column_parts]
  exact ⟨reading.lineRun, reading.columnRun⟩

end FrameLine

namespace Frame

/-- (Converts digits x) requires `x` to be the number nearest to what a run of digits writes. -/
structure Converts (digits : List Char) (x : Binary64) : Prop where
  run : FrameLine.IsRun digits
  nearest : x.IsNearest (Nat.ofDigitChars 10 digits 0 : Nat)

variable {digits : List Char} {x : Binary64}

theorem converts_numberOf (run : FrameLine.IsRun digits)
    : Converts digits (numberOf digits) :=
  ⟨run, Binary64.isNearest_ofNat _⟩

/-- Only one number is nearest to what a run writes. -/
theorem Converts.eq_numberOf (converts : Converts digits x)
    : x = numberOf digits :=
  converts.nearest.unique (Binary64.isNearest_ofNat _)

/-- A run with zeros in front of it writes what it writes without them. -/
theorem Converts.zeros_append (converts : Converts digits x) (zeros : Nat)
    : Converts (List.replicate zeros '0' ++ digits) x := by
  obtain ⟨⟨nonempty, isDigits⟩, nearest⟩ := converts
  refine ⟨⟨List.append_ne_nil_of_right_ne_nil _ nonempty, ?_⟩, ?_⟩
  · intro c member
    rcases List.mem_append.mp member with zero | digit
    · rw [List.eq_of_mem_replicate zero]
      rfl
    · exact isDigits c digit
  · rwa [Nat.ofDigitChars_append, Nat.ofDigitChars_replicate_zero, Nat.mul_zero]

/-- Two runs are the line and the column of a frame. -/
theorem exists_framesOf {line column : List Char} (lineRun : FrameLine.IsRun line)
    (columnRun : FrameLine.IsRun column)
    : ∃ stack, framesOf stack = .ok [⟨anonymous, "f", numberOf line, numberOf column⟩] := by
  have printable : FrameLine.Printable ⟨none, ['f'], line, column⟩ := {
    named := nofun
    uncutName := nofun
    uncutFile := fun _ => of_decide_eq_true rfl
    filed := rfl
    lineRun
    columnRun
  }
  exact ⟨_, framesOf_print printable (List.forall_mem_nil _) List.not_mem_nil
    (String.toList_ofList ..) rfl⟩

end Frame

/-- Each frame of a stack text keeps as its line and its column the numbers nearest to the runs of
digits that its line writes, and every two runs are the line and the column of some frame. For a
run there is one such number. It is exact up to the 53rd power of two, it is the same with zeros in
front of the run, it is infinite just for the runs from the bound on, and it is no greater than
that of a run that writes as much or more.
-/
theorem framesOf_numbers_nearest
    : (∀ stack frames,
        framesOf stack = .ok frames
        → List.Forall₂
            (fun parts frame =>
              Frame.Converts parts.line frame.line ∧ Frame.Converts parts.column frame.column)
            ((Text.lines stack.toList).filterMap FrameLine.ofLine?) frames)
      ∧ (∀ line column,
          FrameLine.IsRun line
          → FrameLine.IsRun column
          → ∃ stack frame,
              framesOf stack = .ok [frame]
              ∧ Frame.Converts line frame.line
              ∧ Frame.Converts column frame.column)
      ∧ ∀ digits x,
          Frame.Converts digits x
          → let n := Nat.ofDigitChars 10 digits 0
            (∀ y, Frame.Converts digits y → y = x)
            ∧ (n ≤ 2 ^ 53 → x.value? = some (n : ℚ))
            ∧ (∀ zeros, Frame.Converts (List.replicate zeros '0' ++ digits) x)
            ∧ (x = .infinite false ↔ Binary64.infiniteFrom ≤ n)
            ∧ ∀ others y,
                Frame.Converts others y → n ≤ Nat.ofDigitChars 10 others 0 → x.AtMost y := by
  refine ⟨?_, ?_, ?_⟩
  · intro stack frames read
    have runs : ∀ parts ∈ (Text.lines stack.toList).filterMap FrameLine.ofLine?,
        FrameLine.IsRun parts.line ∧ FrameLine.IsRun parts.column := by
      intro parts member
      obtain ⟨text, -, found⟩ := List.mem_filterMap.mp member
      exact FrameLine.isRun_of_ofLine? found
    refine ((List.forall₂_and_left ..).mpr ⟨runs, Frame.forall₂_of_mapM read⟩).imp ?_
    rintro parts frame ⟨⟨lineRun, columnRun⟩, made⟩
    obtain ⟨file, -, rfl⟩ := Frame.ofFrameLine_eq_ok_iff.mp made
    exact ⟨Frame.converts_numberOf lineRun, Frame.converts_numberOf columnRun⟩
  · intro line column lineRun columnRun
    obtain ⟨stack, read⟩ := Frame.exists_framesOf lineRun columnRun
    exact ⟨stack, _, read, Frame.converts_numberOf lineRun, Frame.converts_numberOf columnRun⟩
  · intro digits x converts n
    refine ⟨?_, ?_, converts.zeros_append, converts.nearest.eq_infinite_iff, ?_⟩
    · intro y other
      rw [other.eq_numberOf, converts.eq_numberOf]
    · intro exact
      rw [converts.eq_numberOf]
      exact Binary64.value?_ofNat exact
    · intro others y other order
      exact converts.nearest.atMost other.nearest (by exact_mod_cast order)

/-- A number halfway between two is kept as the even one of them, with zeros in front of it too. -/
example : Frame.numberOf "009007199254740993".toList = .ofNat (2 ^ 53) := by decide

end CompilerReports
