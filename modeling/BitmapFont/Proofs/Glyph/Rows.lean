import BitmapFont.Edit.Batch

/-!
What transforms keep of a glyph.

Results of a batch transform are stored under the codepoint that they carry, in a
sequence of the height that the glyphs had. That they land where they came from is
`Batch.sameRows`: every batch transform keeps codepoint and row count. Only centering
changes the row count on the way, and pads it back (`Glyph.sameRows_centered`).
-/

namespace BitmapFont

namespace Glyph

/-- Two glyphs of one codepoint and one row count. -/
structure SameRows (g g' : Glyph) : Prop where
  codepoint : g'.codepoint = g.codepoint
  height : g'.height = g.height

variable {g g' : Glyph}

theorem SameRows.refl (g : Glyph) : g.SameRows g := ⟨rfl, rfl⟩

theorem SameRows.trans {g'' : Glyph} (first : g.SameRows g') (second : g'.SameRows g'') :
    g.SameRows g'' :=
  ⟨second.codepoint.trans first.codepoint, second.height.trans first.height⟩

theorem sameRows_fromFn (g : Glyph) (width : UInt8) (f : Nat → Nat → Bool) :
    g.SameRows (fromFn g.codepoint width g.height f) where
  codepoint := rfl
  height := g.atLeastOne_height

/-! ### Width and style -/

/-- A picture drawn on the rows of a glyph in a width that was checked first. -/
theorem sameRows_of_checked {width : Nat} {f : Nat → Nat → Bool}
    (drawn : (checkWidth width).map (fun w => fromFn g.codepoint w g.height f) = .ok g') :
    g.SameRows g' := by
  cases checked : checkWidth width with
  | error cause =>
      rw [checked] at drawn
      cases drawn
  | ok w =>
      rw [checked] at drawn
      cases drawn
      exact g.sameRows_fromFn w f

theorem sameRows_setWidth {width : UInt8} (done : g.setWidth width = .ok g') : g.SameRows g' :=
  sameRows_of_checked done

theorem sameRows_padToMin {width : UInt8} (done : g.padToMin width = .ok g') : g.SameRows g' := by
  unfold padToMin at done
  split at done
  · exact sameRows_setWidth done
  · cases done
    exact .refl g

theorem sameRows_truncateToMax {width : UInt8} (done : g.truncateToMax width = .ok g') :
    g.SameRows g' := by
  unfold truncateToMax at done
  split at done
  · exact sameRows_setWidth done
  · cases done
    exact .refl g

theorem sameRows_addMargins {left right : UInt8} (done : g.addMargins left right = .ok g') :
    g.SameRows g' :=
  sameRows_of_checked done

theorem sameRows_bold (done : g.bold = .ok g') : g.SameRows g' :=
  sameRows_of_checked done

theorem sameRows_italic {slant : UInt8} (done : g.italic slant = .ok g') : g.SameRows g' := by
  unfold italic at done
  split at done
  · cases done
    exact .refl g
  · exact sameRows_of_checked done

theorem sameRows_trimHorizontal (g : Glyph) : g.SameRows g.trimHorizontal := by
  unfold trimHorizontal
  split
  · exact g.sameRows_fromFn 1 _
  · exact g.sameRows_fromFn _ _

/-! ### Centering -/

theorem codepoint_trimVertical (g : Glyph) : g.trimVertical.codepoint = g.codepoint := by
  unfold trimVertical
  split
  · rfl
  · rfl

theorem lastInkRow?_lt {last : Nat} (found : g.lastInkRow? = some last) : last < g.height.toNat :=
  List.mem_range.mp (List.mem_reverse.mp (List.mem_of_find?_eq_some found))

theorem firstInkRow?_lt {first : Nat} (found : g.firstInkRow? = some first) :
    first < g.height.toNat :=
  List.mem_range.mp (List.mem_of_find?_eq_some found)

theorem height_trimVertical_le (g : Glyph) : g.trimVertical.height.toNat ≤ g.height.toNat := by
  have pos := g.height_pos
  unfold trimVertical
  split
  · exact pos
  · rename_i first found
    have first_lt := firstInkRow?_lt found
    have last_lt : g.lastInkRow?.getD first < g.height.toNat := by
      cases last : g.lastInkRow? with
      | none => exact first_lt
      | some last' => exact lastInkRow?_lt last
    have byte := g.height.toNat_lt
    have rows : (UInt8.ofNat (g.lastInkRow?.getD first - first + 1)).toNat =
        g.lastInkRow?.getD first - first + 1 := by
      rw [UInt8.toNat_ofNat']
      omega
    simp only [fromFn_height]
    rw [atLeastOne_of_pos (by omega), rows]
    omega

/-- A glyph that is trimmed and centered again has the rows it had. -/
theorem sameRows_centered (g : Glyph) : g.SameRows (g.trimVertical.centerVertical g.height) := by
  have codepoint := g.codepoint_trimVertical
  unfold centerVertical
  split
  · rename_i high
    exact ⟨codepoint, UInt8.toNat_inj.mp (Nat.le_antisymm g.height_trimVertical_le
      (UInt8.le_iff_toNat_le.mp high))⟩
  · exact ⟨codepoint, g.atLeastOne_height⟩

end Glyph

/-- Every batch transform keeps the codepoint and the row count of a glyph. -/
theorem Batch.sameRows {t : Batch} {g g' : Glyph} (done : t.glyph g.height g = .ok g') :
    g.SameRows g' := by
  cases t with
  | fixWidth width => exact Glyph.sameRows_setWidth done
  | minWidth width => exact Glyph.sameRows_padToMin done
  | maxWidth width => exact Glyph.sameRows_truncateToMax done
  | margins left right => exact Glyph.sameRows_addMargins done
  | trim =>
      cases done
      exact g.sameRows_trimHorizontal
  | center =>
      cases done
      exact g.sameRows_centered
  | bold => exact Glyph.sameRows_bold done
  | italic slant => exact Glyph.sameRows_italic done
  | invert =>
      cases done
      exact g.sameRows_fromFn g.width _
  | shift dx dy =>
      cases done
      exact g.sameRows_fromFn g.width _

end BitmapFont
