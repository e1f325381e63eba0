import RadioSpectrum.Files
import RadioSpectrum.Proofs.Except

namespace RadioSpectrum

theorem Bytes.toString?_ofString (text : String) : toString? (ofString text) = some text :=
  dif_pos text.isValidUTF8

-- What is written under a path is what is read there next, and reading changes nothing.
class LawfulFiles (m : Type → Type) [Monad m] [Files m] : Prop where
  read_write (path : String) (content : Bytes) :
    (do ExceptT.mk (Files.write path content); (Files.read path : m _) :
        ExceptT FileError m (Except FileError Bytes)) =
      (do ExceptT.mk (Files.write path content); return .ok content)

section Lawful

variable {m : Type → Type} [Monad m] [LawfulMonad m] {ε ε' α β : Type}

theorem adapt_bind (f : ε → ε') (x : ExceptT ε m α) (g : α → ExceptT ε m β) :
    (x >>= g).adapt f = x.adapt f >>= fun a => (g a).adapt f := by
  apply ExceptT.ext
  simp only [ExceptT.run_adapt, ExceptT.run_bind, map_bind, bind_map_left]
  congr
  funext r
  cases r
  case error => exact map_pure ..
  case ok    => rfl

theorem adapt_lift (f : ε → ε') (x : m α) : (liftM x : ExceptT ε m α).adapt f = liftM x := by
  apply ExceptT.ext
  show Except.mapError f <$> Except.ok <$> x = Except.ok <$> x
  rw [Functor.map_map]
  rfl

theorem adapt_pure (f : ε → ε') (x : α) : (pure x : ExceptT ε m α).adapt f = pure x := by
  apply ExceptT.ext
  exact map_pure ..

-- To pass failures on as failures of another kind is to look for them.
theorem liftM_bind_eq_adapt (f : ε → ε') (x : m (Except ε α)) :
    ((liftM x : ExceptT ε' m (Except ε α)) >>= fun
      | .error e => throw (f e)
      | .ok a => return a) = (ExceptT.mk x).adapt f := by
  apply ExceptT.ext
  have hl : (liftM x : ExceptT ε' m (Except ε α)).run = Except.ok <$> x := rfl
  rw [ExceptT.run_bind, hl, bind_map_left, ExceptT.run_adapt, ExceptT.run_mk, map_eq_pure_bind]
  congr
  funext r
  cases r <;> rfl

-- The law for programs that have failures of their own and go on with what they read.
theorem read_adapt_write [Files m] [LawfulFiles m] (path : String) (content : Bytes)
    (f : FileError → ε) (k : Except FileError Bytes → ExceptT ε m β) :
    (do (ExceptT.mk (Files.write path content)).adapt f; k (← (Files.read path : m _))) =
      (do (ExceptT.mk (Files.write path content)).adapt f; k (.ok content)) := by
  have h := congrArg (·.adapt f >>= k) (LawfulFiles.read_write (m := m) path content)
  simpa only [adapt_bind, adapt_lift, adapt_pure, bind_assoc, pure_bind] using h

end Lawful

namespace Node

variable {content : Bytes} {node : Node} {place place' : List String}

@[simp]
theorem entries_directory (entries : List (String × Node)) : (directory entries).entries = entries :=
  rfl

theorem find?_put (content : Bytes) (place : List String) (node : Node) :
    (node.put content place).find? place = some (.file content) := by
  induction place generalizing node
  case nil => rfl
  case cons name place hi => simp [find?, put, hi]

theorem lookup_filter_ne {β : Type} {x y : String} (h : x ≠ y) (ps : List (String × β)) :
    (ps.filter (·.1 ≠ y)).lookup x = ps.lookup x := by
  induction ps
  case nil => rfl
  case cons p ps hi =>
    obtain ⟨z, v⟩ := p
    by_cases hz : z = y
    case pos =>
      obtain rfl := hz
      simpa [List.lookup_cons, beq_eq_false_iff_ne.mpr h] using hi
    case neg =>
      rw [List.filter_cons_of_pos (by simpa using hz), List.lookup_cons, List.lookup_cons, hi]

theorem find?_put_of_ne {name name' : String} (h : name' ≠ name) :
    (node.put content (name :: place)).find? (name' :: place') = node.find? (name' :: place') := by
  simp only [find?, put, entries_directory, List.lookup_cons, beq_eq_false_iff_ne.mpr h,
    lookup_filter_ne h]

-- A file that is put where no directory is leaves all directories in their places.
theorem exists_directory_put (hd : ∃ entries, node.find? place' = some (.directory entries))
    (hn : ¬∃ entries, node.find? place = some (.directory entries)) :
    ∃ entries, (node.put content place).find? place' = some (.directory entries) := by
  induction place generalizing node place'
  case nil =>
    cases node
    case directory entries => exact absurd ⟨entries, rfl⟩ hn
    case file => cases place' <;> simp [find?, entries] at hd
  case cons name place hi =>
    cases place'
    case nil => exact ⟨_, rfl⟩
    case cons name' place' =>
      by_cases h : name' = name
      case neg => rwa [find?_put_of_ne h]
      case pos =>
        obtain rfl := h
        cases hl : node.entries.lookup name'
        case none => simp [find?, hl] at hd
        case some child =>
          simp only [find?, hl, Option.bind_some] at hd hn
          simpa [find?, put, hl] using hi hd hn

end Node

namespace Disk

variable {d d' : Disk} {root : Node} {path : String} {content : Bytes} {here place : List String}

-- A path that leads somewhere still leads there when a file was put in a place.
theorem follow_put {parts : List String} (h : follow root here parts = .ok place)
    {place' : List String} (hn : ¬∃ entries, root.find? place' = some (.directory entries)) :
    follow (root.put content place') here parts = .ok place := by
  fun_induction follow root here parts
  case case1 => exact h
  case case2 hp hi => rw [follow, if_pos hp, hi h]
  case case3 hp hi => rw [follow, if_neg hp, if_pos rfl, hi h]
  case case4 | case6 | case7 => contradiction
  case case5 hp hq hl =>
    rw [follow, if_neg hp, if_neg hq, if_neg hl, if_pos rfl]
    exact h
  case case8 here part _ hp hq hl hr entries he hi =>
    obtain ⟨entries', he'⟩ : ∃ entries',
        (root.put content place').find? (here ++ [part]) = some (.directory entries') :=
      Node.exists_directory_put ⟨entries, he⟩ hn
    rw [follow, if_neg hp, if_neg hq, if_neg hl, if_neg hr, he']
    exact hi h

theorem locate_put (h : d.locate path = .ok place)
    {place' : List String} (hn : ¬∃ entries, d.root.find? place' = some (.directory entries)) :
    ({ d with root := d.root.put content place' } : Disk).locate path = .ok place := by
  simp only [locate, ite_eq_iff, reduceCtorEq, and_false, false_or] at h ⊢
  obtain ⟨hc, he, hl, h⟩ := h
  exact ⟨hc, he, hl, follow_put h hn⟩

-- Neither a directory nor a path that asks for one is overwritten.
theorem write_eq_ok : d.write path content = .ok d' ↔
    ∃ place, d.locate path = .ok place ∧
      (¬∃ entries, d.root.find? place = some (.directory entries)) ∧ path.endsWith '/' = false ∧
      { d with root := d.root.put content place } = d' := by
  rw [write, bind_eq_ok]
  refine exists_congr fun place => and_congr_right fun _ => ?_
  rcases d.root.find? place with _ | _ | _ <;> simp [ite_eq_iff]

theorem read_of_write (h : d.write path content = .ok d') : d'.read path = .ok content := by
  obtain ⟨place, hl, hn, hs, rfl⟩ := write_eq_ok.mp h
  rw [read, locate_put hl hn]
  simp [Node.find?_put, hs, bind, Except.bind]

end Disk

end RadioSpectrum
