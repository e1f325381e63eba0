import Mathlib.Data.List.Nodup
import RadioSpectrum.Proofs.Toml.Line
import RadioSpectrum.Proofs.Toml.Section
import RadioSpectrum.Settings

namespace RadioSpectrum

namespace Settings

-- The settings of a configuration, and the two records that hold most of them.
inductive Field where
  | bufferCapacity
  | admission
  | transform
  | fftSize
  | window
  | format
  | fftShift
  | decimation
  | frontend
  | freq
  | amp
  | lna
  | vga
  | sampleRate
deriving Repr, DecidableEq

-- Counts that their fields can hold.
structure Fits (c : FlowgraphConfig) : Prop where
  bufferCapacity : c.bufferCapacity < UInt64.size
  fftSize        : c.transform.fftSize < UInt64.size
  decimation     : c.transform.decimation < UInt32.size
  freq           : c.frontend.freq < UInt64.size
  amp            : c.frontend.amp < UInt8.size
  lna            : c.frontend.lna < UInt8.size
  vga            : c.frontend.vga < UInt8.size
  sampleRate     : c.frontend.sampleRate < UInt64.size

-- Counts that have a form in a document.
structure Expressible (c : FlowgraphConfig) : Prop where
  bufferCapacity : c.bufferCapacity < tomlBound
  fftSize        : c.transform.fftSize < tomlBound
  freq           : c.frontend.freq < tomlBound
  sampleRate     : c.frontend.sampleRate < tomlBound

namespace Field

def key : Field → String
  | bufferCapacity => "buffer_capacity"
  | admission      => "admission"
  | transform      => "transform"
  | fftSize        => "fft_size"
  | window         => "window"
  | format         => "format"
  | fftShift       => "fft_shift"
  | decimation     => "decimation"
  | frontend       => "frontend"
  | freq           => "freq"
  | amp            => "amp"
  | lna            => "lna"
  | vga            => "vga"
  | sampleRate     => "sample_rate"

-- The fields of a record.
def inner : Field → List Field
  | transform => [fftSize, window, format, fftShift, decimation]
  | frontend  => [freq, amp, lna, vga, sampleRate]
  | _         => []

-- What the line of a field says. The heading of a record opens a table that is empty so far.
def value (c : FlowgraphConfig) : Field → Document
  | transform | frontend => .table .heading []
  | bufferCapacity       => .integer c.bufferCapacity
  | admission            => .text c.admission.name
  | fftSize              => .integer c.transform.fftSize
  | window               => .text c.transform.window.name
  | format               => .text c.transform.format.name
  | fftShift             => .boolean c.transform.fftShift
  | decimation           => .integer c.transform.decimation
  | freq                 => .integer c.frontend.freq
  | amp                  => .integer c.frontend.amp
  | lna                  => .integer c.frontend.lna
  | vga                  => .integer c.frontend.vga
  | sampleRate           => .integer c.frontend.sampleRate

theorem key_injective : Function.Injective key := by
  intro f g h
  cases f <;> cases g <;> first | rfl | simp [key] at h

theorem isBare_key (f : Field) : Toml.IsBare f.key := by
  cases f <;> decide

end Field

-- Settings that are in no record.
def loose : List Field :=
  [.bufferCapacity, .admission]

def records : List Field :=
  [.transform, .frontend]

def Field.line (c : FlowgraphConfig) (f : Field) : Toml.Line :=
  if f ∈ records then .table [f.key] else .entry [f.key] (f.value c)

-- The fields that the lines of a document are about, in this order. Two lines are blank.
def layout : List (Option Field) :=
  loose.map some ++ records.flatMap fun r => none :: (r :: r.inner).map some

-- Whether the line of a field stays in the document of some fields. A heading also stays for the
-- sake of the fields under it.
def isKept (S : Field → Bool) (f : Field) : Bool :=
  S f || f.inner.any S

variable {S : Field → Bool} {c : FlowgraphConfig}

open Toml

-- The document of a configuration without the lines of the fields outside `S`.
def abridged (S : Field → Bool) (c : FlowgraphConfig) : String :=
  String.join ((((tomlLines c).zip layout).filter (·.2.all (isKept S))).map (·.1 ++ "\n"))

-- The default configuration with the settings in `S` replaced by those of another one.
def overlay (S : Field → Bool) (c : FlowgraphConfig) : FlowgraphConfig where
  bufferCapacity := if S .bufferCapacity then c.bufferCapacity else default.bufferCapacity
  admission := if S .admission then c.admission else default.admission
  transform := {
    fftSize := if S .fftSize then c.transform.fftSize else default.transform.fftSize
    window := if S .window then c.transform.window else default.transform.window
    format := if S .format then c.transform.format else default.transform.format
    fftShift := if S .fftShift then c.transform.fftShift else default.transform.fftShift
    decimation := if S .decimation then c.transform.decimation else default.transform.decimation }
  frontend := {
    freq := if S .freq then c.frontend.freq else default.frontend.freq
    amp := if S .amp then c.frontend.amp else default.frontend.amp
    lna := if S .lna then c.frontend.lna else default.frontend.lna
    vga := if S .vga then c.frontend.vga else default.frontend.vga
    sampleRate := if S .sampleRate then c.frontend.sampleRate else default.frontend.sampleRate }
where
  default : FlowgraphConfig := {}

section Lines

-- How the value of a setting is printed.
def print : Document → String
  | .integer n => toString n
  | .text name => quoted name
  | .boolean b => toString b
  | _          => ""

def Field.print (c : FlowgraphConfig) (f : Field) : String :=
  if f ∈ records then "[" ++ f.key ++ "]" else f.key ++ " = " ++ Settings.print (f.value c)

theorem tomlLines_eq (c : FlowgraphConfig) :
    tomlLines c = layout.map (·.elim "" (Field.print c)) := by
  have hn (n : Nat) : (n : Int).repr = n.repr := rfl
  simp [tomlLines, layout, loose, records, Field.inner, Field.print, Field.key, Field.value, print, hn]

theorem isPlain_admission (a : AdmissionPolicy) : IsPlain a.name := by
  cases a <;> decide

theorem isPlain_window (w : Window) : IsPlain w.name := by
  cases w <;> decide

theorem isPlain_format (f : SampleFormat) : IsPlain f.name := by
  cases f <;> decide

theorem valued_value (h : Fits c) (he : Expressible c) {f : Field} (hf : f ∉ records) :
    Valued (print (f.value c)).toList (f.value c) := by
  have h₃₂ : UInt32.size ≤ integerBound := by decide
  have h₈ : UInt8.size ≤ integerBound := by decide
  cases f
  case bufferCapacity => exact valued_natural he.bufferCapacity
  case admission      => exact valued_plain (isPlain_admission c.admission)
  case transform      => simp [records] at hf
  case fftSize        => exact valued_natural he.fftSize
  case window         => exact valued_plain (isPlain_window c.transform.window)
  case format         => exact valued_plain (isPlain_format c.transform.format)
  case fftShift       => exact valued_truth c.transform.fftShift
  case decimation     => exact valued_natural (Nat.lt_of_lt_of_le h.decimation h₃₂)
  case frontend       => simp [records] at hf
  case freq           => exact valued_natural he.freq
  case amp            => exact valued_natural (Nat.lt_of_lt_of_le h.amp h₈)
  case lna            => exact valued_natural (Nat.lt_of_lt_of_le h.lna h₈)
  case vga            => exact valued_natural (Nat.lt_of_lt_of_le h.vga h₈)
  case sampleRate     => exact valued_natural he.sampleRate

theorem reads_print (h : Fits c) (he : Expressible c) (f : Field) :
    Reads (f.print c) (f.line c) := by
  unfold Field.print Field.line
  split
  case isTrue     => exact reads_table f.isBare_key
  case isFalse hf => exact reads_entry f.isBare_key (valued_value h he hf)

end Lines

section Documents

-- What is told about some fields, as far as they are in `S`.
def entries (S : Field → Bool) (c : FlowgraphConfig) (fs : List Field) : Entries :=
  (fs.filter S).map fun f => (f.key, f.value c)

-- The records that a document has a heading for.
def sections (S : Field → Bool) (c : FlowgraphConfig) : List (String × Entries) :=
  (records.filter (isKept S)).map fun r => (r.key, entries S c r.inner)

-- What the document of the fields in `S` holds.
def root (S : Field → Bool) (c : FlowgraphConfig) : Entries :=
  entries S c loose ++ (sections S c).map fun s => (s.1, .table .heading s.2)

def keptLines (S : Field → Bool) (c : FlowgraphConfig) : List (String × Line) :=
  (layout.filter (·.all (isKept S))).map fun f? =>
    (f?.elim "" (Field.print c), f?.elim .blank (Field.line c))

theorem abridged_eq (S : Field → Bool) (c : FlowgraphConfig) :
    abridged S c = String.join ((keptLines S c).map (·.1 ++ "\n")) := by
  have hz : (tomlLines c).zip layout = layout.map fun f? => (f?.elim "" (Field.print c), f?) := by
    rw [tomlLines_eq]
    simpa using List.zip_map' (f := (·.elim "" (Field.print c))) (g := id) (l := layout)
  rw [abridged, hz, List.filter_map]
  simp [keptLines, Function.comp_def]

theorem isKept_of_not_record {f : Field} (h : f ∉ records) : isKept S f = S f := by
  cases f <;> simp [records] at h <;> simp [isKept, Field.inner]

theorem not_record_of_loose {f : Field} : f ∈ loose → f ∉ records := by
  cases f <;> decide

theorem inner_not_record (r : Field) : ∀ f ∈ r.inner, f ∉ records := by
  cases r <;> decide

theorem line_of_record {r : Field} (h : r ∈ records) : r.line c = .table [r.key] :=
  if_pos h

theorem ofEntries_entries {fs : List Field} (h : ∀ f ∈ fs, f ∉ records) :
    Line.ofEntries (entries S c fs) = (fs.filter (isKept S)).map (Field.line c) := by
  have hf : fs.filter (isKept S) = fs.filter S :=
    List.filter_congr fun f hf => isKept_of_not_record (h f hf)
  rw [hf, Line.ofEntries, entries, List.map_map]
  refine List.map_congr_left fun f hf => ?_
  simp [Field.line, h f (List.mem_of_mem_filter hf)]

-- A heading that is gone has left nothing below it.
theorem filter_inner_of_not_kept {r : Field} (h : isKept S r = false) :
    r.inner.filter (isKept S) = [] := by
  simp only [isKept, Bool.or_eq_false_iff, List.any_eq_false] at h
  refine List.filter_eq_nil_iff.mpr fun f hf => ?_
  rw [isKept_of_not_record (inner_not_record r f hf)]
  exact h.right f hf

theorem lines_of_record {r : Field} (h : r ∈ records) :
    ((r :: r.inner).filter (isKept S)).map (Field.line c) =
      if isKept S r then .table [r.key] :: Line.ofEntries (entries S c r.inner) else [] := by
  split
  case isTrue hk  =>
    rw [List.filter_cons_of_pos hk, List.map_cons, line_of_record h,
      ofEntries_entries (inner_not_record r)]
  case isFalse hk =>
    rw [List.filter_cons_of_neg hk, filter_inner_of_not_kept (by simpa using hk), List.map_nil]

theorem sections_lines (S : Field → Bool) (c : FlowgraphConfig) :
    ((sections S c).flatMap fun s => .table [s.1] :: Line.ofEntries s.2) =
      records.flatMap fun r => ((r :: r.inner).filter (isKept S)).map (Field.line c) := by
  have hr := List.flatMap_congr fun r => lines_of_record (S := S) (c := c) (r := r)
  rw [hr, sections, List.flatMap_map]
  simp [records, List.filter_cons]
  split <;> split <;> simp

theorem keptLines_filter (S : Field → Bool) (c : FlowgraphConfig) :
    ((keptLines S c).map (·.2)).filter (!·.isBlank) =
      Line.ofEntries (entries S c loose) ++
        (sections S c).flatMap fun s => .table [s.1] :: Line.ofEntries s.2 := by
  have hb (f : Field) : (f.line c).isBlank = false := by
    unfold Field.line
    split <;> rfl
  have hn : Line.isBlank .blank = true := rfl
  rw [sections_lines, ofEntries_entries fun _ => not_record_of_loose]
  simp [keptLines, layout, List.filter_map, List.filter_flatMap, List.map_flatMap,
    Function.comp_def, hb, hn, -List.map_cons]

theorem nodup_keys {fs : List Field} (h : fs.Nodup) : (entries S c fs).keys.Nodup := by
  rw [Entries.keys, entries, List.map_map]
  exact List.Nodup.map Field.key_injective (h.filter S)

theorem nodup_root (S : Field → Bool) (c : FlowgraphConfig) :
    ((entries S c loose).keys ++ (sections S c).map (·.1)).Nodup := by
  have hk : (entries S c loose).keys ++ (sections S c).map (·.1) =
      (loose.filter S ++ records.filter (isKept S)).map Field.key := by
    simp [Entries.keys, entries, sections, Function.comp_def]
  have hs : List.Sublist (loose.filter S ++ records.filter (isKept S)) (loose ++ records) :=
    List.filter_sublist.append List.filter_sublist
  rw [hk]
  exact List.Nodup.map Field.key_injective (hs.nodup (by decide))

-- What is taken out is the only thing that is missing.
theorem parse?_abridged (h : Fits c) (he : Expressible c) (S : Field → Bool) :
    parse? (abridged S c) = some (.table .whole (root S c)) := by
  have hr : ∀ x ∈ keptLines S c, Reads x.1 x.2 := by
    simp only [keptLines, List.forall_mem_map]
    rintro (_ | f) _
    · exact reads_blank
    · exact reads_print h he f
  have hs : ∀ s ∈ sections S c, s.2.keys.Nodup := by
    simp only [sections, List.forall_mem_map]
    exact fun r _ => nodup_keys (by cases r <;> decide)
  have hd := Progress.foldlM_document (keptLines_filter S c) (nodup_root S c) hs
  obtain ⟨p, hp, hd⟩ := Option.map_eq_some_iff.mp hd
  rw [abridged_eq, parse?_reads hr, hp, Option.map_some, hd, root]

end Documents

end Settings

end RadioSpectrum
