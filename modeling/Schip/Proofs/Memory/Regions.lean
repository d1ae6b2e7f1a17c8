import Schip.Memory

/-!
# Regions of memory

Memory has three regions: the fonts at the bottom, a gap behind them, and the program region from
`programBase` on. A reset writes the fonts (`fontsInstalled_installFonts`) and blanks the program
region (`blank_reset`); it leaves the gap alone (`sameGap_reset`). Two blank memories differ in the
gap at most (`Blank.sameOutsideGap`), and a program loaded into both leaves it at that
(`SameOutsideGap.overlay`).
-/

set_option autoImplicit false

namespace Schip.Memory

/-- First address behind the fonts. -/
def fontEnd : Nat := Font.extendedBase + Font.extended.length

/-- Both fonts are in place. The last byte of the standard font is the first of the extended one. -/
structure FontsInstalled (mem : Memory) : Prop where
  standard : ∀ i, i < Font.extendedBase → mem.bytes[i]? = Font.standard[i]?
  extended : ∀ i, i < Font.extended.length →
    mem.bytes[Font.extendedBase + i]? = Font.extended[i]?

/-- Fonts in place, and nothing in the program region. -/
structure Blank (mem : Memory) : Prop where
  fonts : mem.FontsInstalled
  program : ∀ a (h : a < 4096), programBase ≤ a → mem.bytes[a] = 0

/-- Same bytes below and above the gap between the fonts and the program region. -/
def SameOutsideGap (mem mem' : Memory) : Prop :=
  ∀ a (h : a < 4096), a < fontEnd ∨ programBase ≤ a → mem.bytes[a] = mem'.bytes[a]

/-- Same bytes between the fonts and the program region. -/
def SameGap (mem mem' : Memory) : Prop :=
  ∀ a (h : a < 4096), fontEnd ≤ a → a < programBase → mem.bytes[a] = mem'.bytes[a]

variable {mem mem' mem'' : Memory}

theorem ext_bytes (h : ∀ a (ha : a < 4096), mem.bytes[a] = mem'.bytes[a]) : mem = mem' := by
  cases mem
  cases mem'
  congr 1
  exact Vector.ext h

theorem length_standard : Font.standard.length = 80 := by
  simp only [Font.standard, List.length_cons, List.length_nil]

theorem length_extended : Font.extended.length = 160 := by
  simp only [Font.extended, List.length_cons, List.length_nil]

theorem fontEnd_eq : fontEnd = 239 := by
  rw [fontEnd, length_extended, Font.extendedBase]

theorem fontEnd_le_programBase : fontEnd ≤ programBase := by
  rw [fontEnd_eq, programBase]
  omega

/-! ## Overlays -/

theorem getElem_overlay_of_lt {base a : Nat} (h : a < base) (ha : a < 4096) (data : Array UInt8) :
    (mem.overlay base data).bytes[a] = mem.bytes[a] := by
  rw [getElem_overlay, if_neg (Nat.not_le.2 h)]

theorem getElem_overlay_of_le {base a : Nat} {data : Array UInt8} (h : base + data.size ≤ a)
    (ha : a < 4096) : (mem.overlay base data).bytes[a] = mem.bytes[a] := by
  rw [getElem_overlay, if_pos (by omega), Array.getElem?_eq_none (by omega), Option.getD_none]

/-- Data laid over the memory is there. -/
theorem getElem_overlay_add {base i : Nat} {data : Array UInt8} (h : i < data.size)
    (ha : base + i < 4096) : (mem.overlay base data).bytes[base + i] = data[i] := by
  rw [getElem_overlay, if_pos (Nat.le_add_right base i), Nat.add_sub_cancel_left,
    Array.getElem?_eq_getElem h, Option.getD_some]

/-! ## Fonts -/

/-- Behind the fonts their installation changes nothing. -/
theorem getElem_installFonts_of_le {a : Nat} (h : fontEnd ≤ a) (ha : a < 4096) :
    mem.installFonts.bytes[a] = mem.bytes[a] := by
  rw [fontEnd_eq] at h
  have hextended : Font.extendedBase + Font.extended.toArray.size ≤ a := by
    simp only [List.size_toArray, length_extended, Font.extendedBase]
    omega
  have hstandard : Font.standardBase + Font.standard.toArray.size ≤ a := by
    simp only [List.size_toArray, length_standard, Font.standardBase]
    omega
  rw [installFonts, getElem_overlay_of_le hextended ha, getElem_overlay_of_le hstandard ha]

/-- Both fonts are in place once they are installed, although they share a byte. -/
theorem fontsInstalled_installFonts (mem : Memory) : mem.installFonts.FontsInstalled where
  standard := by
    intro i hi
    have hlow : i < 79 := hi
    have hlength : i < Font.standard.length := by
      rw [length_standard]
      omega
    -- below the extended font, which is written second
    rw [Vector.getElem?_eq_getElem (by omega), installFonts, getElem_overlay_of_lt hi,
      getElem_overlay, List.getElem?_eq_getElem hlength]
    simp [Font.standardBase, hlength]
  extended := by
    intro i hi
    have hlow : i < 160 := by simpa only [length_extended] using hi
    have hsize : i < Font.extended.toArray.size := by simpa only [List.size_toArray] using hi
    have hbound : Font.extendedBase + i < 4096 := by
      simp only [Font.extendedBase]
      omega
    rw [Vector.getElem?_eq_getElem hbound, installFonts, getElem_overlay_add hsize hbound]
    simp

/-- The fonts determine every byte below the gap. -/
theorem FontsInstalled.getElem_eq (h : mem.FontsInstalled) (h' : mem'.FontsInstalled) {a : Nat}
    (ha : a < fontEnd) (hbound : a < 4096) : mem.bytes[a] = mem'.bytes[a] := by
  have hread : mem.bytes[a]? = mem'.bytes[a]? := by
    rcases Nat.lt_or_ge a Font.extendedBase with hlow | hhigh
    · rw [h.standard a hlow, h'.standard a hlow]
    · have hi : a - Font.extendedBase < Font.extended.length := by
        rw [fontEnd] at ha
        omega
      have hread := (h.extended _ hi).trans (h'.extended _ hi).symm
      rwa [Nat.add_sub_cancel' hhigh] at hread
  rw [Vector.getElem?_eq_getElem hbound, Vector.getElem?_eq_getElem hbound] at hread
  exact Option.some.inj hread

/-! ## Resets -/

theorem blank_new : new.Blank where
  fonts := fontsInstalled_installFonts _
  program := by
    intro a ha hprogram
    have hfonts : fontEnd ≤ a := Nat.le_trans fontEnd_le_programBase hprogram
    rw [new, getElem_installFonts_of_le hfonts ha]
    simp

/-- After a reset the fonts are in place and the program region is empty. -/
theorem blank_reset (mem : Memory) : mem.reset.Blank where
  fonts := fontsInstalled_installFonts _
  program := by
    intro a ha hprogram
    have hfonts : fontEnd ≤ a := Nat.le_trans fontEnd_le_programBase hprogram
    rw [reset, getElem_installFonts_of_le hfonts ha]
    simp [hprogram]

/-- A reset leaves the gap between the fonts and the program region. -/
theorem sameGap_reset (mem : Memory) : mem.reset.SameGap mem := by
  intro a ha hfonts hprogram
  rw [reset, getElem_installFonts_of_le hfonts ha]
  simp [Nat.not_le.2 hprogram]

/-- Blank memories differ in the gap alone. -/
theorem Blank.sameOutsideGap (h : mem.Blank) (h' : mem'.Blank) : mem.SameOutsideGap mem' := by
  intro a ha hregion
  rcases hregion with hfonts | hprogram
  · exact h.fonts.getElem_eq h'.fonts hfonts ha
  · rw [h.program a ha hprogram, h'.program a ha hprogram]

theorem eq_of_sameOutsideGap_of_sameGap (h : mem.SameOutsideGap mem') (h' : mem.SameGap mem') :
    mem = mem' := by
  refine ext_bytes fun a ha => ?_
  by_cases hregion : a < fontEnd ∨ programBase ≤ a
  · exact h a ha hregion
  · have hgap : fontEnd ≤ a ∧ a < programBase := by omega
    exact h' a ha hgap.1 hgap.2

/-- A second reset does nothing. -/
theorem reset_reset (mem : Memory) : mem.reset.reset = mem.reset :=
  eq_of_sameOutsideGap_of_sameGap ((blank_reset _).sameOutsideGap (blank_reset mem))
    (sameGap_reset mem.reset)

/-! ## Programs -/

theorem SameGap.trans (h : mem.SameGap mem') (h' : mem'.SameGap mem'') : mem.SameGap mem'' :=
  fun a ha hfonts hprogram => (h a ha hfonts hprogram).trans (h' a ha hfonts hprogram)

/-- A program leaves the gap alone. -/
theorem sameGap_overlay (mem : Memory) (data : Array UInt8) :
    (mem.overlay programBase data).SameGap mem :=
  fun _ ha _ hprogram => getElem_overlay_of_lt hprogram ha data

/-- The same program over memories that differ in the gap alone. -/
theorem SameOutsideGap.overlay (h : mem.SameOutsideGap mem') (data : Array UInt8) :
    (mem.overlay programBase data).SameOutsideGap (mem'.overlay programBase data) := by
  intro a ha hregion
  rw [getElem_overlay, getElem_overlay, h a ha hregion]

end Schip.Memory
