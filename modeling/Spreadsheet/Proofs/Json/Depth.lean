import Spreadsheet.Proofs.Json.Limits

/-!
# Values that are read can be shown

Reading stops at a bracket inside too many others, and showing a value stops at one inside too many
others. Of the two limits that of reading is met first.

**Theorem (`depth_of_parseCodes`).** In a value that is read there are at most as many values inside
each other as there may be brackets, and one more.

While a value is read, some arrays and objects around it are open. The invariant of the machine
(`Place.Fits`) is that the values in each of them fit into what is left there.
-/

namespace Spreadsheet

namespace Json

variable {v : Json} {stack : List Frame} {t : Token} {place next : Place}

/-! ## Places -/

/-- A value fits into so many open arrays and objects. -/
def Fits (v : Json) (around : Nat) : Prop := v.depth + around ≤ maxDepth + 1

/-- The values in an array or an object that is open fit into it and those around it. -/
def Frame.Fits (around : Nat) : Frame → Prop
  | .array items => ∀ v ∈ items, v.Fits (around + 1)
  | .object entries _ => ∀ e ∈ entries, e.2.Fits (around + 1)

/-- All values in the open arrays and objects fit, and there is room for the innermost of these. -/
def FramesFit : List Frame → Prop
  | [] => True
  | f :: around => f.Fits around.length ∧ around.length < maxDepth ∧ FramesFit around

/-- All values that were read up to a place fit. -/
def Place.Fits : Place → Prop
  | .value stack => FramesFit stack
  | .firstItem stack => FramesFit (.array [] :: stack)
  | .afterItem items stack => FramesFit (.array items :: stack)
  | .firstKey stack => FramesFit (.object [] "" :: stack)
  | .key entries stack | .colon entries _ stack | .afterEntry entries stack =>
    FramesFit (.object entries "" :: stack)
  | .done v => v.Fits 0

theorem FramesFit.length_le (h : FramesFit stack) : stack.length ≤ maxDepth := by
  cases stack with
  | nil => exact Nat.zero_le _
  | cons f around => exact h.2.1

theorem fits_of_depth_eq_one (hv : v.depth = 1) (h : FramesFit stack) : v.Fits stack.length := by
  have hlength := h.length_le
  unfold Fits
  omega

/-- An array or an object fits, if what is in it does. -/
theorem fits_array {items : List Json} (h : FramesFit (.array items :: stack)) :
    (array items.reverse).Fits stack.length := by
  obtain ⟨hitems, hroom, -⟩ := h
  have hdepth : depthOfItems items.reverse ≤ maxDepth - stack.length := by
    refine depthOfItems_le_iff.2 fun v hv => ?_
    have hfits : v.depth + (stack.length + 1) ≤ maxDepth + 1 := hitems v (List.mem_reverse.1 hv)
    omega
  unfold Fits
  rw [depth]
  omega

theorem fits_object {entries : List (JsonText × Json)} {key : JsonText}
    (h : FramesFit (.object entries key :: stack)) : (object entries).Fits stack.length := by
  obtain ⟨hentries, hroom, -⟩ := h
  have hdepth : depthOfEntries entries ≤ maxDepth - stack.length := by
    refine depthOfEntries_le_iff.2 fun e he => ?_
    have hfits : e.2.depth + (stack.length + 1) ≤ maxDepth + 1 := hentries e he
    omega
  unfold Fits
  rw [depth]
  omega

/-! ## The machine -/

theorem fits_deliver (hv : v.Fits stack.length) (h : FramesFit stack) : (deliver v stack).Fits := by
  cases stack with
  | nil => exact hv
  | cons f around =>
    obtain ⟨hf, hroom, haround⟩ := h
    cases f with
    | array items => exact ⟨List.forall_mem_cons.2 ⟨hv, hf⟩, hroom, haround⟩
    | object entries key =>
      refine ⟨fun e he => ?_, hroom, haround⟩
      rcases Pairs.eq_or_mem_of_mem_set he with heq | he
      · exact heq ▸ hv
      · exact hf e he

theorem fits_openBracket {bracket : Bracket} (h : FramesFit stack)
    (hopen : openBracket stack bracket = .ok next) : next.Fits := by
  unfold openBracket at hopen
  split at hopen
  · rename_i hroom
    cases bracket <;> cases hopen <;> exact ⟨nofun, hroom, h⟩
  · cases hopen

theorem fits_beginValue (ht : ∀ v, t = .scalar v → v.depth = 1) (h : FramesFit stack)
    (hbegin : beginValue stack t = .ok next) : next.Fits := by
  unfold beginValue at hbegin
  split at hbegin
  · exact fits_openBracket h hbegin
  · exact fits_openBracket h hbegin
  · cases hbegin
    exact fits_deliver (fits_of_depth_eq_one rfl h) h
  · cases hbegin
    exact fits_deliver (fits_of_depth_eq_one (ht _ rfl) h) h
  · cases hbegin
  · cases hbegin

/-- **The step lemma.** -/
theorem Place.Fits.step (ht : ∀ v, t = .scalar v → v.depth = 1) (h : place.Fits)
    (hstep : step place t = .ok next) : next.Fits := by
  unfold Json.step at hstep
  split at hstep
  · exact fits_beginValue ht h hstep
  · cases hstep
    exact fits_deliver (fits_array h) h.2.2
  · exact fits_beginValue ht h hstep
  · cases hstep
    exact h
  · cases hstep
    exact fits_deliver (fits_array h) h.2.2
  · cases hstep
    exact fits_deliver (fits_object h) h.2.2
  · cases hstep
    exact h
  · cases hstep
    exact h
  · cases hstep
    exact h
  · cases hstep
    exact h
  · cases hstep
    exact fits_deliver (fits_object h) h.2.2
  · cases hstep

/-- **The run lemma.** -/
theorem Place.Fits.run {ts : List Token} (hts : ∀ v, .scalar v ∈ ts → v.depth = 1) (h : place.Fits)
    (hrun : run place ts = .ok v) : v.Fits 0 := by
  induction ts generalizing place with
  | nil =>
    unfold Json.run at hrun
    split at hrun
    · cases hrun
      exact h
    · cases hrun
    · rename_i heq
      cases heq
  | cons t rest ih =>
    rw [Json.run] at hrun
    cases hstep : Json.step place t with
    | error e =>
      rw [hstep] at hrun
      cases hrun
    | ok next =>
      rw [hstep] at hrun
      have ht : ∀ v, t = .scalar v → v.depth = 1 := fun v hv => hts v (hv ▸ List.mem_cons_self)
      exact ih (fun v hv => hts v (List.mem_cons_of_mem t hv)) (h.step ht hstep) hrun

/-! ## Texts -/

/-- Numbers and words have no values inside them. -/
theorem depth_of_mem_tokens {cs : List Char} (h : .scalar v ∈ tokens cs) : v.depth = 1 := by
  fun_induction tokens cs with
  | case1 => cases h
  | case2 c rest hspace ih => exact ih h
  | case3 c rest hspace t ht ih =>
    rcases List.mem_cons.1 h with heq | h
    · unfold punctuation? at ht
      split at ht <;> cases ht <;> cases heq
    · exact ih h
  | case4 c rest hspace hnone hquote units after hunits ih =>
    rcases List.mem_cons.1 h with heq | h
    · cases heq
    · exact ih h
  | case5 => cases List.mem_singleton.1 h
  | case6 c rest hspace hnone hquote t after hscalar ih =>
    rcases List.mem_cons.1 h with rfl | h
    · rcases (scalar?_cases hscalar).1 with ⟨w, hw, hdepth⟩ | ⟨n, hn, -⟩
      · exact Token.scalar.inj hw ▸ hdepth
      · cases hn
    · exact ih h
  | case7 => cases List.mem_singleton.1 h

/-- **What is read is not nested too deep.** -/
theorem depth_of_parseCodes {codes : List Nat} (h : parseCodes codes = .ok v) :
    v.depth ≤ maxDepth + 1 := by
  have hstart : (Place.value []).Fits := trivial
  exact hstart.run (fun _ => depth_of_mem_tokens) h

/-- The value of a key is one of an entry, or there is none. -/
theorem depth_lookup_le {entries : List (JsonText × Json)} {n : Nat} (hn : 1 ≤ n)
    (h : ∀ e ∈ entries, e.2.depth ≤ n) (key : String) : (lookup key entries).depth ≤ n := by
  unfold lookup
  cases hget : Pairs.get? (key : JsonText) entries with
  | none => exact hn
  | some v => exact h _ (Pairs.mem_of_get? hget)

/-- **The entries of an object that is read can be shown**, also where they are objects. -/
theorem isShowable_lookup_of_parseCodes {codes : List Nat} {entries : List (JsonText × Json)}
    (h : parseCodes codes = .ok (.object entries)) {e : JsonText × Json} (he : e ∈ entries)
    {fields : List (JsonText × Json)} (hfields : e.2.entries? = some fields) (key : String) :
    (lookup key fields).isShowable = true := by
  have hdepth : depthOfEntries entries + 1 ≤ maxDepth + 1 := depth_of_parseCodes h
  have hentry := depthOfEntries_le_iff.1 (Nat.le_of_succ_le_succ hdepth) e he
  cases hobject : e.2 with
  | object own =>
    rw [hobject] at hentry hfields
    cases hfields
    have hown := depthOfEntries_le_iff.1 (Nat.le_of_succ_le hentry)
    exact isShowable_of_depth_le (depth_lookup_le (by decide)
      (fun d hd => Nat.le_trans (hown d hd) (by decide : maxDepth ≤ maxShown)) key)
  | _ =>
    rw [hobject] at hfields
    cases hfields

end Json

end Spreadsheet
