import RadioSpectrum.Proofs.CommandLine.Desk
import RadioSpectrum.Proofs.Settings.Fields

namespace RadioSpectrum

namespace Settings

open Document Toml

variable {S : Field → Bool} {c : FlowgraphConfig} {f : Field} {fs : List Field}

section Reading

theorem lookup_filter (p : Field → Bool) (v : Field → Document) (f : Field) (fs : List Field) :
    List.lookup f.key ((fs.filter p).map fun f => (f.key, v f)) =
      if f ∈ fs ∧ p f then some (v f) else none := by
  induction fs
  case nil => simp
  case cons g fs hi =>
    by_cases hf : f = g
    case pos =>
      subst hf
      cases hp : p f
      case false => rw [List.filter_cons_of_neg (by simp [hp]), hi]; simp [hp]
      case true  => simp [hp]
    case neg =>
      have hk : (f.key == g.key) = false := by simpa using fun h => hf (Field.key_injective h)
      cases hp : p g <;> simp [List.lookup_cons, hp, hf, hk, hi]

theorem lookup_entries (S : Field → Bool) (c : FlowgraphConfig) (f : Field) (fs : List Field) :
    (entries S c fs).lookup f.key = if f ∈ fs ∧ S f then some (f.value c) else none :=
  lookup_filter ..

theorem lookup_root (S : Field → Bool) (c : FlowgraphConfig) (f : Field) :
    (root S c).lookup f.key =
      if f ∈ loose ∧ S f then some (f.value c)
      else if f ∈ records ∧ isKept S f then some (.table .heading (entries S c f.inner))
      else none := by
  have hs := lookup_filter (isKept S) (fun r => .table .heading (entries S c r.inner)) f records
  rw [root, List.lookup_append, lookup_entries, sections, List.map_map]
  split
  · rfl
  · exact hs

variable {β : Type} {read : Document → Option β} {b : β}

theorem fieldD_ite {p : Prop} [Decidable p] {d : Document} (h : read d = some b) (default : β) :
    fieldD (if p then some d else none) read default = some (if p then b else default) := by
  split
  · exact h
  · rfl

theorem natural?_integer {n bound : Nat} (h : n < bound) : natural? bound (.integer n) = some n := by
  simp [natural?, h]

theorem ofName?_admission (a : AdmissionPolicy) : AdmissionPolicy.ofName? a.name = some a := by
  cases a <;> decide

theorem ofName?_window (w : Window) : Window.ofName? w.name = some w := by
  cases w <;> decide

theorem ofName?_format (f : SampleFormat) : SampleFormat.ofName? f.name = some f := by
  cases f <;> decide

-- A setting in a table of settings is read as it was saved, if it is there.
theorem fieldD_entries (S : Field → Bool) (hf : f ∈ fs) (read : Document → Option β)
    (h : read (f.value c) = some b) (default : β) :
    fieldD ((entries S c fs).lookup f.key) read default = some (if S f then b else default) := by
  simp only [lookup_entries, hf, true_and]
  exact fieldD_ite h default

theorem fieldD_loose (S : Field → Bool) (hf : f ∈ loose) (read : Document → Option β)
    (h : read (f.value c) = some b) (default : β) :
    fieldD ((root S c).lookup f.key) read default = some (if S f then b else default) := by
  have hr := not_record_of_loose hf
  simp only [lookup_root, hf, hr, true_and, false_and, if_false]
  exact fieldD_ite h default

-- Of a record that has nothing in `S` there is no table.
theorem fieldD_record (S : Field → Bool) (hf : f ∈ records) (read : Document → Option β)
    (h : read (.table .heading (entries S c f.inner)) = some b) {default : β}
    (hd : isKept S f = false → b = default) :
    fieldD ((root S c).lookup f.key) read default = some b := by
  have hl : f ∉ loose := fun hl => not_record_of_loose hl hf
  simp only [lookup_root, hf, hl, true_and, false_and, if_false]
  rw [fieldD_ite h default]
  split
  case isTrue     => rfl
  case isFalse hk => rw [hd (by simpa using hk)]

theorem spectrum?_entries (h : Fits c) (S : Field → Bool) :
    spectrum? .sections (.table .heading (entries S c Field.transform.inner)) =
      some (overlay S c).transform := by
  let default : SpectrumConfig := {}
  have fftSize := fieldD_entries S (by decide : Field.fftSize ∈ Field.transform.inner)
    (natural? UInt64.size) (natural?_integer h.fftSize) default.fftSize
  have window := fieldD_entries S (by decide : Field.window ∈ Field.transform.inner)
    (choice? .sections Window.ofName?) (ofName?_window c.transform.window) default.window
  have format := fieldD_entries S (by decide : Field.format ∈ Field.transform.inner)
    (choice? .sections SampleFormat.ofName?) (ofName?_format c.transform.format) default.format
  have fftShift := fieldD_entries (c := c) S (by decide : Field.fftShift ∈ Field.transform.inner)
    boolean? rfl default.fftShift
  have decimation := fieldD_entries S (by decide : Field.decimation ∈ Field.transform.inner)
    (natural? UInt32.size) (natural?_integer h.decimation) default.decimation
  simp only [Field.key, default] at fftSize window format fftShift decimation
  simp only [spectrum?, fields?, Option.bind_eq_bind, Option.bind_some, *]
  rfl

theorem frontend?_entries (h : Fits c) (S : Field → Bool) :
    frontend? .sections (.table .heading (entries S c Field.frontend.inner)) =
      some (overlay S c).frontend := by
  let default : FrontendConfig := {}
  have freq := fieldD_entries S (by decide : Field.freq ∈ Field.frontend.inner)
    (natural? UInt64.size) (natural?_integer h.freq) default.freq
  have amp := fieldD_entries S (by decide : Field.amp ∈ Field.frontend.inner)
    (natural? UInt8.size) (natural?_integer h.amp) default.amp
  have lna := fieldD_entries S (by decide : Field.lna ∈ Field.frontend.inner)
    (natural? UInt8.size) (natural?_integer h.lna) default.lna
  have vga := fieldD_entries S (by decide : Field.vga ∈ Field.frontend.inner)
    (natural? UInt8.size) (natural?_integer h.vga) default.vga
  have sampleRate := fieldD_entries S (by decide : Field.sampleRate ∈ Field.frontend.inner)
    (natural? UInt64.size) (natural?_integer h.sampleRate) default.sampleRate
  simp only [Field.key, default] at freq amp lna vga sampleRate
  simp only [frontend?, fields?, Option.bind_eq_bind, Option.bind_some, *]
  rfl

-- Without its heading a record has nothing in `S`, and so it is the default.
theorem overlay_transform_of_not_kept (h : isKept S .transform = false) :
    (overlay S c).transform = {} := by
  simp [isKept, Field.inner] at h
  simp [overlay, overlay.default, h]

theorem overlay_frontend_of_not_kept (h : isKept S .frontend = false) :
    (overlay S c).frontend = {} := by
  simp [isKept, Field.inner] at h
  simp [overlay, overlay.default, h]

theorem flowgraph?_root (h : Fits c) (S : Field → Bool) :
    flowgraph? .sections (.table .whole (root S c)) = some (overlay S c) := by
  let default : FlowgraphConfig := {}
  have bufferCapacity := fieldD_loose S (by decide : Field.bufferCapacity ∈ loose)
    (natural? UInt64.size) (natural?_integer h.bufferCapacity) default.bufferCapacity
  have admission := fieldD_loose S (by decide : Field.admission ∈ loose)
    (choice? .sections AdmissionPolicy.ofName?) (ofName?_admission c.admission) default.admission
  have transform := fieldD_record S (by decide : Field.transform ∈ records)
    (spectrum? .sections) (spectrum?_entries h S) overlay_transform_of_not_kept
  have frontend := fieldD_record S (by decide : Field.frontend ∈ records)
    (frontend? .sections) (frontend?_entries h S) overlay_frontend_of_not_kept
  simp only [Field.key, default] at bufferCapacity admission transform frontend
  simp only [flowgraph?, fields?, Option.bind_eq_bind, Option.bind_some, *]
  rfl

end Reading

section Texts

variable (α : Type)

theorem overlay_all (c : FlowgraphConfig) : overlay (fun _ => true) c = c :=
  rfl

theorem toToml_of_expressible (h : Expressible c) :
    toToml (α := α) c = .ok (abridged (fun _ => true) c) := by
  have hz : ((tomlLines c).zip layout).map (·.1 ++ "\n") = (tomlLines c).map (· ++ "\n") :=
    rfl
  have hk : (fun x : String × Option Field => x.2.all (isKept fun _ => true)) = fun _ => true := by
    funext ⟨_, f?⟩
    cases f? <;> rfl
  rw [abridged, hk, List.filter_true, hz]
  exact if_pos ⟨h.bufferCapacity, h.fftSize, h.freq, h.sampleRate⟩

theorem toToml_of_not_expressible (h : ¬Expressible c) :
    toToml (α := α) c = .error .inexpressible :=
  if_neg fun ⟨hb, hs, hf, hr⟩ => h ⟨hb, hs, hf, hr⟩

theorem ofToml_abridged (h : Fits c) (he : Expressible c) (S : Field → Bool) :
    ofToml (α := α) (abridged S c) = .ok (overlay S c) := by
  simp [ofToml, parse?_abridged h he, flowgraph?_root h]

end Texts

section Saving

variable {α : Type} {path text : String} {m : Type → Type} [Monad m] [LawfulMonad m] [Files m]

-- Saving is writing the document.
theorem save_eq (h : toToml (α := α) c = .ok text) : save (m := m) (α := α) path c =
    (ExceptT.mk (Files.write path (Bytes.ofString text))).adapt (.writeFailed path) := by
  rw [← liftM_bind_eq_adapt, save, h]
  refine (pure_bind text _).trans ?_
  congr
  funext r
  cases r <;> rfl

theorem save_of_error {e : ConfigError α} (h : toToml c = .error e) :
    save (m := m) path c = throw e := by
  apply ExceptT.ext
  simp [save, h, ExceptT.run_bind]

theorem load_save [LawfulFiles m] (h : toToml (α := α) c = .ok text)
    (ht : ofToml (α := α) text = .ok c) :
    (do save path c; load path : ExceptT (ConfigError α) m _) =
      (do save path c; return c) := by
  rw [save_eq h]
  refine (read_adapt_write path _ _ _).trans ?_
  simp only [Bytes.toString?_ofString, ht]
  rfl

end Saving

-- A saved configuration as a document, as a document with lines taken out of it, and as a file.
theorem saved_fields_return (α : Type) (m : Type → Type) [Monad m] [LawfulMonad m] [Files m]
    [LawfulFiles m] (h : Fits c) :
    (Expressible c →
      toToml (α := α) c = .ok (abridged (fun _ => true) c) ∧
      (∀ S, ofToml (α := α) (abridged S c) = .ok (overlay S c)) ∧
      overlay (fun _ => true) c = c ∧
      ∀ path,
        save (m := m) (α := α) path c =
          (ExceptT.mk (Files.write path (Bytes.ofString (abridged (fun _ => true) c)))).adapt
            (.writeFailed path) ∧
        (do save path c; load path : ExceptT (ConfigError α) m FlowgraphConfig) =
          (do save path c; return c)) ∧
    (¬Expressible c →
      toToml (α := α) c = .error .inexpressible ∧
      ∀ path, save (m := m) (α := α) path c = throw .inexpressible) := by
  constructor
  case left =>
    intro he
    have ht := toToml_of_expressible α he
    have hr : ofToml (α := α) (abridged (fun _ => true) c) = .ok c := ofToml_abridged α h he _
    exact ⟨ht, ofToml_abridged α h he, overlay_all c, fun path => ⟨save_eq ht, load_save ht hr⟩⟩
  case right =>
    intro he
    have ht := toToml_of_not_expressible α he
    exact ⟨ht, fun path => save_of_error ht⟩

section Samples

def tuned : FlowgraphConfig where
  bufferCapacity := 8192
  admission := .wait
  transform := { fftSize := 512, window := .blackmanHarris, format := .real, fftShift := false }
  frontend := { freq := 100000000, amp := 0, sampleRate := 2000000 }

theorem tuned_fits : Fits tuned := by
  constructor <;> decide

theorem tuned_expressible : Expressible tuned := by
  constructor <;> decide

def overfull : FlowgraphConfig where
  bufferCapacity := tomlBound

theorem overfull_fits : Fits overfull := by
  constructor <;> decide

theorem overfull_not_expressible : ¬Expressible overfull := fun he =>
  absurd he.bufferCapacity (Nat.lt_irrefl _)

def tunedPath : String := "/srv/sdr/flowgraph.toml"

theorem locate_tuned : Desk.shelf.disk.locate tunedPath = .ok ["srv", "sdr", "flowgraph.toml"] :=
  toOption_eq_some.mp (by decide +kernel)

-- Of the window and the sample rate alone, and as a file.
theorem saved_fields_return_tuned :
    let picked (f : Field) : Bool := f = .window ∨ f = .sampleRate
    Fits tuned ∧ Expressible tuned ∧
      abridged picked tuned =
        "\n[transform]\nwindow = \"blackman_harris\"\n\n[frontend]\nsample_rate = 2000000\n" ∧
      ofToml (α := Rat) (abridged picked tuned) = .ok
        { transform := { window := .blackmanHarris }, frontend := { sampleRate := 2000000 } } ∧
      (∃ desk,
        (save (m := StateM Desk) (α := Rat) tunedPath tuned).run.run .shelf = (.ok (), desk) ∧
        (load (m := StateM Desk) (α := Rat) tunedPath).run.run desk = (.ok tuned, desk)) ∧
      Fits overfull ∧ ¬Expressible overfull ∧
      (save (m := StateM Desk) (α := Rat) tunedPath overfull).run.run .shelf =
        (.error .inexpressible, .shelf) := by
  intro picked
  obtain ⟨-, hr, -, hf⟩ := (saved_fields_return Rat (StateM Desk) tuned_fits).left tuned_expressible
  obtain ⟨-, he⟩ :=
    (saved_fields_return Rat (StateM Desk) overfull_fits).right overfull_not_expressible
  obtain ⟨hs, hl⟩ := hf tunedPath
  obtain ⟨disk, hd⟩ := Desk.exists_write_shelf locate_tuned (by decide +kernel) _
  have h := hs ▸ Desk.run_adapt_write hd _
  exact ⟨tuned_fits, tuned_expressible, by decide, hr picked,
    ⟨_, h, Desk.run_of_bind_eq hl h⟩, overfull_fits, overfull_not_expressible,
    by rw [he]; rfl⟩

end Samples

end Settings

end RadioSpectrum
