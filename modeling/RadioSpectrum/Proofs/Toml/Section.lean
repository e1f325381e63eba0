import RadioSpectrum.Toml.Section

namespace RadioSpectrum

namespace Toml

variable {root entries inner : Entries} {path : List String} {t k : String} {d v : Document}

namespace Entries

def keys (entries : Entries) : List String :=
  entries.map (·.1)

@[simp]
theorem keys_nil : keys [] = [] :=
  rfl

@[simp]
theorem keys_append (entries inner : Entries) :
    keys (entries ++ inner) = keys entries ++ keys inner :=
  List.map_append

@[simp]
theorem keys_cons (k : String) (d : Document) (entries : Entries) :
    keys ((k, d) :: entries) = k :: keys entries :=
  rfl

theorem lookup_of_fresh (h : k ∉ entries.keys) : entries.lookup k = none := by
  simp only [keys, List.mem_map, not_exists, not_and] at h
  simp only [List.lookup_eq_none_iff, bne_iff_ne]
  exact fun e he hk => h e he hk.symm

theorem put_of_fresh (h : k ∉ entries.keys) : entries.put k d = entries ++ [(k, d)] := by
  simp [keys] at h
  simp [put, h]

theorem lookup_last (h : k ∉ entries.keys) : List.lookup k (entries ++ [(k, d)]) = some d := by
  simp [List.lookup_append, lookup_of_fresh h]

theorem put_last (h : k ∉ entries.keys) :
    put (entries ++ [(k, d)]) k v = entries ++ [(k, v)] := by
  simp only [keys, List.mem_map, not_exists, not_and] at h
  have hm : entries.map (fun e => if e.1 = k then (k, v) else e) = entries.map id :=
    List.map_congr_left fun e he => if_neg (h e he)
  simp [put, hm]

theorem not_mem_keys_of_nodup (h : (keys (entries ++ (k, d) :: inner)).Nodup) :
    k ∉ entries.keys := by
  rw [keys_append, keys_cons] at h
  exact fun hk => List.nodup_append.mp h |>.right.right k hk k (by simp) rfl

end Entries

namespace Line

-- The lines that say the settings of a table one by one.
def ofEntries (entries : Entries) : List Line :=
  entries.map fun e => .entry [e.1] e.2

def isBlank : Line → Bool
  | blank => true
  | _     => false

end Line

namespace Progress

open Entries

theorem add?_entry (h : k ∉ root.keys) :
    add? ⟨[], root⟩ (.entry [k] v) = some ⟨[], root ++ [(k, v)]⟩ := by
  simp [add?, within?, insert?, lookup_of_fresh h, put_of_fresh h]

theorem add?_table (h : t ∉ root.keys) :
    add? ⟨path, root⟩ (.table [t]) = some ⟨[t], root ++ [(t, .table .heading [])]⟩ := by
  simp [add?, heading?, openTable?, lookup_of_fresh h, put_of_fresh h]

theorem add?_entry_last (ht : t ∉ root.keys) (hk : k ∉ inner.keys) :
    add? ⟨[t], root ++ [(t, .table .heading inner)]⟩ (.entry [k] v) =
      some ⟨[t], root ++ [(t, .table .heading (inner ++ [(k, v)]))]⟩ := by
  simp [add?, within?, enter?, insert?, lookup_last ht, put_last ht, lookup_of_fresh hk,
    put_of_fresh hk]

-- By induction on the settings. `progress` says where those so far stand in the document.
theorem foldlM_entries (progress : Entries → Progress) (inner : Entries)
    (hp : ∀ inner k v, k ∉ keys inner →
      add? (progress inner) (.entry [k] v) = some (progress (inner ++ [(k, v)])))
    (h : (inner ++ entries).keys.Nodup) :
    (Line.ofEntries entries).foldlM add? (progress inner) = some (progress (inner ++ entries)) := by
  induction entries generalizing inner
  case nil => simp [Line.ofEntries]
  case cons e entries hi =>
    have hk := not_mem_keys_of_nodup h
    rw [List.append_cons] at h ⊢
    simp only [Line.ofEntries, List.map_cons, List.foldlM_cons, hp _ _ _ hk]
    exact hi _ h

theorem foldlM_section (ht : t ∉ root.keys) (h : inner.keys.Nodup) :
    (Line.table [t] :: Line.ofEntries inner).foldlM add? ⟨path, root⟩ =
      some ⟨[t], root ++ [(t, .table .heading inner)]⟩ := by
  simp only [List.foldlM_cons, add?_table ht]
  exact foldlM_entries (fun es => ⟨[t], root ++ [(t, .table .heading es)]⟩) []
    (fun _ _ _ hk => add?_entry_last ht hk) h

-- By induction on the sections, behind which the next one is opened.
theorem foldlM_sections {sections : List (String × Entries)}
    (h : (root.keys ++ sections.map (·.1)).Nodup) (hs : ∀ s ∈ sections, s.2.keys.Nodup) :
    ((sections.flatMap fun s => .table [s.1] :: Line.ofEntries s.2).foldlM add?
      ⟨path, root⟩).map (·.root) =
        some (root ++ sections.map fun s => (s.1, .table .heading s.2)) := by
  induction sections generalizing path root
  case nil => simp
  case cons s sections hi =>
    obtain ⟨hs, hs'⟩ := List.forall_mem_cons.mp hs
    have ht : s.1 ∉ root.keys := by
      intro ht
      exact List.nodup_append.mp h |>.right.right _ ht _ (by simp) rfl
    rw [List.flatMap_cons, List.foldlM_append, foldlM_section ht hs]
    simp only [Option.bind_eq_bind, Option.bind_some]
    rw [hi (by simpa using h) hs']
    simp

theorem add?_of_isBlank (p : Progress) {l : Line} (h : l.isBlank) : add? p l = some p := by
  cases l <;> first | rfl | cases h

theorem foldlM_isBlank (p : Progress) (ls : List Line) :
    (ls.filter (!·.isBlank)).foldlM add? p = ls.foldlM add? p := by
  induction ls generalizing p
  case nil => rfl
  case cons l ls hi =>
    by_cases hl : l.isBlank
    case pos => simp [hl, hi, add?_of_isBlank]
    case neg => simp [hl, hi]

-- Where nothing is said twice, a document holds what its lines say and nothing else.
theorem foldlM_document {ls : List Line} {sections : List (String × Entries)}
    (hl : ls.filter (!·.isBlank) =
      Line.ofEntries root ++ sections.flatMap fun s => .table [s.1] :: Line.ofEntries s.2)
    (h : (root.keys ++ sections.map (·.1)).Nodup) (hs : ∀ s ∈ sections, s.2.keys.Nodup) :
    (ls.foldlM add? {}).map (·.root) =
      some (root ++ sections.map fun s => (s.1, .table .heading s.2)) := by
  have he := foldlM_entries (⟨[], ·⟩) [] (fun _ _ _ => add?_entry) (List.nodup_append.mp h).left
  rw [← foldlM_isBlank, hl, List.foldlM_append, he]
  exact foldlM_sections h hs

end Progress

end Toml

end RadioSpectrum
