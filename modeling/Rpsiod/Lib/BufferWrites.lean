import Mathlib.Data.List.Basic
import Mathlib.Order.Basic

/-!
# Writes into a buffer

A run writes a text into a buffer, a part at a time, and stops where a part does not fit.  What it
writes is a list of writes, each at an offset; a cell that nothing was written to holds nothing.

* `Run.Renders`: the writes stay inside the buffer, and leave the text that is the result in it.
* `Renders.andThen`: **two runs, one behind the other**.
-/

namespace BufferWrites

variable {α : Type*}

/-- Some items, and where they are written. -/
structure Write (α : Type*) where
  start : ℕ
  items : List α

/-- The offset behind a write. -/
def Write.stop (w : Write α) : ℕ := w.start + w.items.length

/-- The cells behind a write. -/
def put (cells : ℕ → Option α) (w : Write α) : ℕ → Option α := fun i =>
  if w.start ≤ i ∧ i < w.stop then w.items[i - w.start]? else cells i

/-- The cells begin with this text. -/
def Holds (cells : ℕ → Option α) (text : List α) : Prop := ∀ i < text.length, cells i = text[i]?

/-- What has been written, and the offset behind it, or nothing if the run stops. -/
structure Run (α : Type*) where
  writes : List (Write α)
  used : Option ℕ

/-- A run that stops without a write. -/
def Run.stopped : Run α := ⟨[], none⟩

/-- A run that writes nothing and goes on. -/
def Run.skip (used : ℕ) : Run α := ⟨[], some used⟩

/-- Another run behind this one, if it does not stop. -/
def Run.andThen (r : Run α) (next : ℕ → Run α) : Run α :=
  match r.used with
  | none => r
  | some used => ⟨r.writes ++ (next used).writes, (next used).used⟩

/-- Behind `text`, in a buffer of this size, the run leaves this result. -/
structure Run.Renders (r : Run α) (size : ℕ) (text : List α) (result : Option (List α)) : Prop where
  inside : ∀ w ∈ r.writes, w.stop ≤ size
  used : r.used = result.map List.length
  holds : ∀ made ∈ result, ∀ cells, Holds cells text → Holds (r.writes.foldl put cells) made

variable {r : Run α} {size : ℕ} {text : List α} {result : Option (List α)}

/-- A write behind the text puts its items there; what it writes behind them does not matter. -/
theorem holds_put {cells : ℕ → Option α} (h : Holds cells text) (items more : List α) :
    Holds (put cells ⟨text.length, items ++ more⟩) (text ++ items) := by
  intro i hi
  rw [List.length_append] at hi
  unfold put Write.stop
  dsimp only
  by_cases hbefore : i < text.length
  · rw [if_neg (by omega), h i hbefore, List.getElem?_append_left hbefore]
  · have hcell : (items ++ more)[i - text.length]? = items[i - text.length]? :=
      List.getElem?_append_left (by omega)
    have htext : (text ++ items)[i]? = items[i - text.length]? :=
      List.getElem?_append_right (by omega)
    rw [if_pos ⟨by omega, by rw [List.length_append]; omega⟩, hcell, htext]

theorem renders_stopped : (Run.stopped : Run α).Renders size text none :=
  ⟨nofun, rfl, nofun⟩

theorem renders_skip : (Run.skip text.length : Run α).Renders size text (some text) := by
  refine ⟨nofun, rfl, ?_⟩
  intro made hmade cells hcells
  rw [Option.mem_some_iff] at hmade
  rw [← hmade]
  exact hcells

/-- One write behind the text. -/
theorem renders_write {items more : List α}
    (hfits : text.length + (items ++ more).length ≤ size) :
    (⟨[⟨text.length, items ++ more⟩], some (text.length + items.length)⟩ : Run α).Renders size text
      (some (text ++ items)) := by
  refine ⟨?_, by rw [Option.map_some, List.length_append], ?_⟩
  · intro w hw
    rw [List.mem_singleton.mp hw]
    exact hfits
  · intro made hmade cells hcells
    rw [Option.mem_some_iff] at hmade
    rw [← hmade]
    exact holds_put hcells items more

/-- A write that is cut, and the run stops. -/
theorem renders_cut {w : Write α} (h : w.stop ≤ size) :
    (⟨[w], none⟩ : Run α).Renders size text none := by
  refine ⟨?_, rfl, nofun⟩
  intro w' hw
  rw [List.mem_singleton.mp hw]
  exact h

/-- **Two runs, one behind the other.** -/
theorem Run.Renders.andThen {next : ℕ → Run α} {f : List α → Option (List α)}
    (h : r.Renders size text result)
    (hnext : ∀ made ∈ result, (next made.length).Renders size made (f made)) :
    (r.andThen next).Renders size text (result.bind f) := by
  have hused := h.used
  unfold Run.andThen
  cases hresult : result with
  | none =>
      rw [hresult] at hused
      rw [hused]
      exact ⟨h.inside, hused, nofun⟩
  | some made =>
      have hstep := hnext made (by rw [hresult]; rfl)
      rw [hresult] at hused
      rw [hused]
      refine ⟨?_, hstep.used, ?_⟩
      · intro w hw
        rcases List.mem_append.mp hw with hw | hw
        · exact h.inside w hw
        · exact hstep.inside w hw
      · intro final hfinal cells hcells
        show Holds ((r.writes ++ (next made.length).writes).foldl put cells) final
        rw [List.foldl_append]
        exact hstep.holds final hfinal _ (h.holds made (by rw [hresult]; rfl) cells hcells)

end BufferWrites
