import Wali.Toolchains.Generate

/-!
# Agreement of the toolchain files

The CMake file starts one directory further down than the others, so its paths lead elsewhere
unless they go up to the root of the file system. Fish reads the flags as words: the blanks between
them are lost. Apart from that the files define the same.
-/

namespace Wali.Toolchains

open Py (Str)
open Paths (IsName WordTo normText walk)

section Readings

variable (cfg : Config)

/-- The tools, by the names of their programs. -/
def tools : List (Var × Str) :=
  [(.cc, "clang"), (.cxx, "clang++"), (.ld, "wasm-ld"), (.ar, "llvm-ar"), (.ranlib, "llvm-ranlib")]

theorem mem_tool {e : Var × Str} (he : e ∈ tools) :
    path e.1 .llvmBinDir e.2 ∈ envFile cfg ∧ path e.1 .llvmBinDir e.2 ∈ cmake cfg := by
  simp only [tools, List.mem_cons, List.not_mem_nil, or_false] at he
  rcases he with rfl | rfl | rfl | rfl | rfl
  all_goals exact ⟨by simp [envFile], by simp [cmake]⟩

theorem isName_tool : ∀ e ∈ tools, IsName e.2 ∧ ' ' ∉ e.2 := by
  have key : ∀ e ∈ tools, (e.2 ≠ [] ∧ e.2 ≠ ['.'] ∧ e.2 ≠ ['.', '.'] ∧ '/' ∉ e.2) ∧ ' ' ∉ e.2 := by
    decide
  intro e he
  obtain ⟨⟨hne, hdot, hdots, hslash⟩, hblank⟩ := key e he
  exact ⟨⟨hne, hdot, hdots, hslash⟩, hblank⟩

/-- The toolchain is two directories, the tools and three kinds of flags. -/
theorem forall_toolchain {P : Var → Prop} (h : P .sysrootDir ∧ P .libcxxDir ∧ (∀ e ∈ tools, P e.1) ∧
    P .commonCflags ∧ P .commonCxxflags ∧ P .commonLdflags) : ∀ v ∈ toolchain, P v := by
  obtain ⟨hsys, hlib, htool, hcflags, hcxxflags, hldflags⟩ := h
  simp only [tools, List.forall_mem_cons] at htool
  simp only [toolchain, List.forall_mem_cons]
  exact ⟨hsys, hlib, htool.1, htool.2.1, htool.2.2.1, htool.2.2.2.1, htool.2.2.2.2.1, hcflags, hcxxflags,
    hldflags, fun _ hv => nomatch hv⟩

/-- The values in a language without lists, which may take a part of a name only. -/
structure Reads (part : Str → Str) (root : Str) (F : Var → Str) : Prop where
  buildDir : F .buildDir = root ++ '/' :: part cfg.buildDir
  sysrootDir : F .sysrootDir = F .buildDir ++ '/' :: part cfg.sysroot
  libcxxDir : F .libcxxDir = F .buildDir ++ '/' :: part cfg.libcxx
  llvmBinDir : F .llvmBinDir = F .buildDir ++ '/' :: (part cfg.llvmDir ++ '/' :: ("bin" : Str))
  tool : ∀ e ∈ tools, F e.1 = F .llvmBinDir ++ '/' :: e.2
  cflags : F .commonCflags = expand F (cfg.commonCflags .sysrootDir)
  cxxflags : F .commonCxxflags = expand F (commonCxxflags .commonCflags .libcxxDir)
  ldflags : F .commonLdflags = expand F (cfg.commonLdflags .sysrootDir .libcxxDir)

section Scalar

variable {eval : (Var → Str) → Assignment Var → Str} {part : Str → Str}

theorem reads_envFile (hl : Local eval)
    (hpath : ∀ F v d name, eval F (path v d name) = F d ++ '/' :: part name)
    (hquoted : ∀ F v t, eval F ⟨v, true, t⟩ = expand F t) (hpart : ∀ s, ' ' ∉ s → part s = s) (x : Str) :
    Reads cfg part (x ++ "/..") (run eval (start x) (envFile cfg)) := by
  let F := run eval (start x) (envFile cfg)
  have heq : ∀ a ∈ envFile cfg, F a.var = eval F a := fun a ha =>
    run_eq_eval hl (ordered_envFile cfg) ha _
  have hloc : F .location = x := run_of_not_mem (by simp [envFile, path]) _
  have hbelow : ∀ v d name, path v d name ∈ envFile cfg → F v = F d ++ '/' :: part name :=
    fun _ _ _ h => (heq _ h).trans (hpath ..)
  have hflags : ∀ v t, ⟨v, true, t⟩ ∈ envFile cfg → F v = expand F t := fun _ _ h =>
    (heq _ h).trans (hquoted ..)
  have hroot : F .rootDir = x ++ "/.." := by
    rw [hbelow .rootDir .location ".." (by simp [envFile]), hloc, hpart _ (by decide)]
    rfl
  have hllvm := hbelow .llvmDir .buildDir cfg.llvmDir (by simp [envFile])
  refine ⟨?_, hbelow .sysrootDir .buildDir _ (by simp [envFile]),
    hbelow .libcxxDir .buildDir _ (by simp [envFile]), ?_, ?_,
    hflags .commonCflags _ (by simp [envFile]), hflags .commonCxxflags _ (by simp [envFile]),
    hflags .commonLdflags _ (by simp [envFile])⟩
  · change F .buildDir = _
    rw [hbelow .buildDir .rootDir cfg.buildDir (by simp [envFile]), hroot]
  · change F .llvmBinDir = F .buildDir ++ _
    rw [hbelow .llvmBinDir .llvmDir "bin" (by simp [envFile]), hllvm, hpart "bin" (by decide),
      List.append_assoc]
    rfl
  · intro e he
    change F e.1 = F .llvmBinDir ++ _
    rw [hbelow _ _ _ (mem_tool cfg he).1, hpart _ (isName_tool e he).2]

theorem evalMake_path (F : Var → Str) (v d : Var) (name : Str) :
    evalMake F (path v d name) = F d ++ '/' :: name := expand_around F [] d ('/' :: name)

/-- The first word of a text. -/
def cut (s : Str) : Str := s.takeWhile (· != ' ')

theorem evalBash_path (F : Var → Str) (v d : Var) (name : Str) :
    evalBash F (path v d name) = F d ++ '/' :: cut name := by
  change expand F (firstWord (around [] d ('/' :: name))) = _
  rw [firstWord_around List.not_mem_nil, expand_around, List.takeWhile_cons_of_pos (by decide)]
  rfl

theorem evalCmake_path {name : Str} (h : ' ' ∉ name) (F : Var → Str) (v d : Var) :
    evalCmake F (path v d name) = F d ++ '/' :: name := by
  have hname : ' ' ∉ '/' :: name := by
    rw [List.mem_cons, not_or]
    exact ⟨by decide, h⟩
  change Py.join ";" ((words (around [] d ('/' :: name))).map (expand F)) = _
  rw [words_around List.not_mem_nil hname, List.map_singleton, expand_around]
  exact List.intercalate_singleton

theorem cut_of_no_blank {s : Str} (h : ' ' ∉ s) : cut s = s :=
  List.takeWhile_eq_self_iff.mpr fun _ hc => bne_iff_ne.mpr fun he => h (he ▸ hc)

theorem blank_not_mem_cut (s : Str) : ' ' ∉ cut s := fun h =>
  absurd (List.mem_takeWhile_imp h) (by decide)

end Scalar

section Files

variable (loc : Location)

theorem reads_makefile : Reads cfg id (File.makefile.location loc ++ "/..")
    (value (File.content cfg) loc .makefile) :=
  reads_envFile cfg local_evalMake evalMake_path (fun _ _ _ => rfl) (fun _ _ => rfl) _

theorem reads_bash : Reads cfg cut (File.bash.location loc ++ "/..")
    (value (File.content cfg) loc .bash) :=
  reads_envFile cfg local_evalBash evalBash_path (fun _ _ _ => rfl) (fun _ => cut_of_no_blank) _

variable {cfg}

theorem reads_cmake (h : ∀ d ∈ [cfg.buildDir, cfg.llvmDir, cfg.sysroot, cfg.libcxx], ' ' ∉ d) :
    Reads cfg id (File.cmake.location loc) (value (File.content cfg) loc .cmake) := by
  let F := run evalCmake (start (File.cmake.location loc)) (cmake cfg)
  have heq : ∀ a ∈ cmake cfg, F a.var = evalCmake F a := fun a ha =>
    run_eq_eval local_evalCmake (ordered_cmake cfg) ha _
  have hloc : F .location = File.cmake.location loc := run_of_not_mem (by simp [cmake, path]) _
  have hbelow : ∀ v d name, path v d name ∈ cmake cfg → ' ' ∉ name → F v = F d ++ '/' :: name :=
    fun _ _ _ h hname => (heq _ h).trans (evalCmake_path hname ..)
  have hflags : ∀ v t, ⟨v, true, t⟩ ∈ cmake cfg → F v = expand F t := fun _ _ h => heq _ h
  have hroot : F .rootDir = File.cmake.location loc := by
    rw [hflags .rootDir [.ref .location] (by simp [cmake]), expand_ref, hloc]
  have hbin : ' ' ∉ cfg.llvmDir ++ ("/bin" : Str) := by
    rw [List.mem_append, not_or]
    exact ⟨h _ (by simp), by decide⟩
  refine ⟨?_, hbelow .sysrootDir .buildDir _ (by simp [cmake]) (h _ (by simp)),
    hbelow .libcxxDir .buildDir _ (by simp [cmake]) (h _ (by simp)),
    hbelow .llvmBinDir .buildDir (cfg.llvmDir ++ "/bin") (by simp [cmake]) hbin, ?_,
    hflags .commonCflags _ (by simp [cmake]), hflags .commonCxxflags _ (by simp [cmake]),
    hflags .commonLdflags _ (by simp [cmake])⟩
  · change F .buildDir = _
    rw [hbelow .buildDir .rootDir cfg.buildDir (by simp [cmake]) (h _ (by simp)), hroot]
    rfl
  · exact fun e he => hbelow _ _ _ (mem_tool cfg he).2 (isName_tool e he).2

/-- Where no name has a blank, nothing is cut off. -/
theorem Reads.of_no_blank {root : Str} {F : Var → Str} (hF : Reads cfg cut root F)
    (h : ∀ d ∈ [cfg.buildDir, cfg.llvmDir, cfg.sysroot, cfg.libcxx], ' ' ∉ d) : Reads cfg id root F where
  buildDir := by rw [hF.buildDir, cut_of_no_blank (h _ (by simp)), id]
  sysrootDir := by rw [hF.sysrootDir, cut_of_no_blank (h _ (by simp)), id]
  libcxxDir := by rw [hF.libcxxDir, cut_of_no_blank (h _ (by simp)), id]
  llvmBinDir := by rw [hF.llvmBinDir, cut_of_no_blank (h _ (by simp)), id]
  tool := hF.tool
  cflags := hF.cflags
  cxxflags := hF.cxxflags
  ldflags := hF.ldflags

end Files

end Readings

-- ════════════════════════════════════════════════════════════════════════
-- Where the paths lead
-- ════════════════════════════════════════════════════════════════════════

section Destinations

variable {cfg : Config} {part : Str → Str} {root root' : Str} {F G : Var → Str} {dir dir' : List Str}

/-- The components below the root of the project, where a part of each name is taken. -/
def Config.rel (cfg : Config) (part : Str → Str) (d : Str) : List Str :=
  (part cfg.buildDir).splitOn '/' ++ (part d).splitOn '/'

/-- Without blanks in the names the paths are words, and this is where they lead. -/
theorem Reads.words (hF : Reads cfg part root F) (h : WordTo root dir)
    (hblank : ∀ d ∈ [cfg.buildDir, cfg.llvmDir, cfg.sysroot, cfg.libcxx], ' ' ∉ part d) :
    WordTo (F .sysrootDir) (walk dir (cfg.rel part cfg.sysroot)) ∧
    WordTo (F .libcxxDir) (walk dir (cfg.rel part cfg.libcxx)) ∧
    ∀ e ∈ tools, WordTo (F e.1) (walk dir (cfg.rel part cfg.llvmDir) ++ [("bin" : Str), e.2]) := by
  have hbelow : ∀ d, ' ' ∉ part d →
      WordTo (F .buildDir ++ '/' :: part d) (walk dir (cfg.rel part d)) := by
    intro d hd
    rw [Config.rel, Paths.walk_append, hF.buildDir]
    exact (h.below (hblank _ (by simp))).below hd
  refine ⟨hF.sysrootDir ▸ hbelow _ (hblank _ (by simp)), hF.libcxxDir ▸ hbelow _ (hblank _ (by simp)), ?_⟩
  intro e he
  obtain ⟨hname, hno⟩ := isName_tool e he
  have hbin : IsName "bin" := ⟨by decide, by decide, by decide, by decide⟩
  have hnames : ∀ d ∈ [("bin" : Str), e.2], IsName d := by
    rw [List.forall_mem_cons, List.forall_mem_singleton]
    exact ⟨hbin, hname⟩
  have hsplit : ("bin" : Str).splitOn '/' ++ e.2.splitOn '/' = [("bin" : Str), e.2] := by
    rw [Py.splitOn_of_not_mem hbin.no_slash, Py.splitOn_of_not_mem hname.no_slash]
    rfl
  have hword := ((hbelow cfg.llvmDir (hblank _ (by simp))).below (show ' ' ∉ ("bin" : Str) by decide)).below hno
  rw [← Paths.walk_append, hsplit, Paths.walk_names hnames] at hword
  rw [hF.tool e he, hF.llvmBinDir]
  simpa only [List.append_assoc, List.cons_append] using hword

theorem Reads.cflags_eq (hF : Reads cfg part root F) : F .commonCflags = Py.join [' ']
    (cfg.targetText :: (("--sysroot=" : Str) ++ F .sysrootDir) :: cfg.cflagTexts) := by
  rw [hF.cflags, Config.commonCflags, expand_shJoin, List.map_cons, List.map_cons, expand_text,
    expand_around, map_expand_text]
  exact congrArg (fun x => Py.join [' '] (cfg.targetText :: x :: cfg.cflagTexts)) (List.append_nil _)

theorem Reads.cxxflags_eq (hF : Reads cfg part root F) : F .commonCxxflags = Py.join [' ']
    [("-stdlib=libc++" : Str), F .commonCflags,
      ("-I" : Str) ++ (F .libcxxDir ++ '/' :: ("include/c++/v1" : Str))] := by
  rw [hF.cxxflags, commonCxxflags, expand_shJoin, List.map_cons, List.map_cons, List.map_singleton,
    expand_text, expand_ref, expand_around, List.append_assoc]
  rfl

theorem Reads.ldflags_eq (hF : Reads cfg part root F) : F .commonLdflags = Py.join [' ']
    ((("-L" : Str) ++ (F .sysrootDir ++ '/' :: ("lib" : Str))) ::
      (("-L" : Str) ++ (F .libcxxDir ++ '/' :: ("lib" : Str))) :: cfg.ldflagTexts) := by
  rw [hF.ldflags, Config.commonLdflags, expand_shJoin, List.map_cons, List.map_cons, expand_around,
    expand_around, map_expand_text, List.append_assoc, List.append_assoc]
  rfl

/-- If the root directories lead to the same places below, the values agree. -/
theorem Reads.agree (hF : Reads cfg id root F) (hG : Reads cfg id root' G) (h : WordTo root dir)
    (h' : WordTo root' dir')
    (hblank : ∀ d ∈ [cfg.buildDir, cfg.llvmDir, cfg.sysroot, cfg.libcxx], ' ' ∉ d)
    (hwalk : ∀ d ∈ [cfg.llvmDir, cfg.sysroot, cfg.libcxx],
      walk dir (cfg.rel id d) = walk dir' (cfg.rel id d)) :
    ∀ v ∈ toolchain, normText (F v) = normText (G v) := by
  obtain ⟨wsys, wlib, wtool⟩ := hF.words h hblank
  obtain ⟨wsys', wlib', wtool'⟩ := hG.words h' hblank
  rw [← hwalk _ (by simp)] at wsys' wlib'
  have hrefl : ∀ xs : List Str, List.Forall₂ (fun x y => normText x = normText y) xs xs := fun xs =>
    List.forall₂_same.mpr fun _ _ => rfl
  -- a directory of the file inside a flag
  have hflag : ∀ {p p' pre q : Str} {dir : List Str}, WordTo p dir → WordTo p' dir → ' ' ∉ q →
      '/' ∉ pre ∧ ' ' ∉ pre → normText (pre ++ (p ++ '/' :: q)) = normText (pre ++ (p' ++ '/' :: q)) :=
    fun w w' hq hpre => (w.below hq).normText_flag (w'.below hq) hpre
  have hcflags : normText (F .commonCflags) = normText (G .commonCflags) := by
    rw [hF.cflags_eq, hG.cflags_eq]
    exact Paths.normText_join (.cons rfl (.cons (wsys.normText_flag wsys' (by decide)) (hrefl _)))
  have hcxxflags : normText (F .commonCxxflags) = normText (G .commonCxxflags) := by
    rw [hF.cxxflags_eq, hG.cxxflags_eq]
    refine Paths.normText_join (.cons rfl (.cons hcflags (.cons ?_ .nil)))
    exact hflag wlib wlib' (by decide) (by decide)
  have hldflags : normText (F .commonLdflags) = normText (G .commonLdflags) := by
    rw [hF.ldflags_eq, hG.ldflags_eq]
    refine Paths.normText_join (.cons ?_ (.cons ?_ (hrefl _)))
    · exact hflag wsys wsys' (by decide) (by decide)
    · exact hflag wlib wlib' (by decide) (by decide)
  refine forall_toolchain ⟨(wsys.normText_eq_iff wsys').mpr rfl, (wlib.normText_eq_iff wlib').mpr rfl,
    fun e he => ?_, hcflags, hcxxflags, hldflags⟩
  rw [(wtool e he).normText_eq_iff (wtool' e he), hwalk _ (by simp)]

end Destinations

-- ════════════════════════════════════════════════════════════════════════
-- Fish
-- ════════════════════════════════════════════════════════════════════════

section Fish

variable {cfg : Config}

/-- The paths are single words in Fish, the same as in Bash. -/
theorem fish_paths (loc : Location)
    (hblank : ∀ d ∈ [cfg.buildDir, cfg.llvmDir, cfg.sysroot, cfg.libcxx], ' ' ∉ d) {F : Var → List Str}
    (hF : F = run evalFish (start [File.fish.location loc]) (envFile cfg)) {G : Var → Str}
    (hG : Reads cfg id (File.bash.location loc ++ "/..") G) :
    F .sysrootDir = [G .sysrootDir] ∧ F .libcxxDir = [G .libcxxDir] ∧ ∀ e ∈ tools, F e.1 = [G e.1] := by
  have hloc : F .location = [File.bash.location loc] := by
    have hsame : File.fish.location loc = File.bash.location loc :=
      (dirname_file loc (by decide)).trans (dirname_file loc (by decide)).symm
    rw [hF, ← hsame]
    exact run_of_not_mem (by simp [envFile, path]) _
  have hbelow : ∀ v d name x, path v d name ∈ envFile cfg → ' ' ∉ name → F d = [x] →
      F v = [x ++ '/' :: name] := by
    intro v d name x hmem hname hd
    have hname' : ' ' ∉ '/' :: name := by
      rw [List.mem_cons, not_or]
      exact ⟨by decide, hname⟩
    have heq : F v = evalFish F (path v d name) :=
      hF ▸ run_eq_eval local_evalFish (ordered_envFile cfg) hmem _
    exact heq.trans (expandWords_around List.not_mem_nil hname' hd)
  have hroot : F .rootDir = [File.bash.location loc ++ "/.."] :=
    hbelow .rootDir .location ".." _ (by simp [envFile]) (by decide) hloc
  have hbuild : F .buildDir = [G .buildDir] := by
    rw [hG.buildDir]
    exact hbelow .buildDir .rootDir _ _ (by simp [envFile]) (hblank _ (by simp)) hroot
  have hllvm : F .llvmDir = [G .buildDir ++ '/' :: cfg.llvmDir] :=
    hbelow .llvmDir .buildDir _ _ (by simp [envFile]) (hblank _ (by simp)) hbuild
  have hbin : F .llvmBinDir = [G .llvmBinDir] := by
    rw [hbelow .llvmBinDir .llvmDir "bin" _ (by simp [envFile]) (by decide) hllvm, hG.llvmBinDir,
      List.append_assoc]
    rfl
  refine ⟨?_, ?_, fun e he => ?_⟩
  · rw [hG.sysrootDir]
    exact hbelow .sysrootDir .buildDir _ _ (by simp [envFile]) (hblank _ (by simp)) hbuild
  · rw [hG.libcxxDir]
    exact hbelow .libcxxDir .buildDir _ _ (by simp [envFile]) (hblank _ (by simp)) hbuild
  · rw [hG.tool e he]
    exact hbelow _ _ _ _ (mem_tool cfg he).1 (isName_tool e he).2 hbin

/-- Fish has the words of what Bash has. -/
theorem fish_eq_textWords (loc : Location)
    (hblank : ∀ d ∈ [cfg.buildDir, cfg.llvmDir, cfg.sysroot, cfg.libcxx], ' ' ∉ d) :
    ∀ v ∈ toolchain, run evalFish (start [File.fish.location loc]) (fish cfg) v =
      textWords (value (File.content cfg) loc .bash v) := by
  let F := run evalFish (start [File.fish.location loc]) (envFile cfg)
  let G := value (File.content cfg) loc .bash
  have hG : Reads cfg id _ G := (reads_bash cfg loc).of_no_blank hblank
  obtain ⟨hsys, hlib, htool⟩ := fish_paths (F := F) loc hblank rfl hG
  obtain ⟨wsys, wlib, wtool⟩ := hG.words (wordTo_root loc .bash) hblank
  have heq : ∀ v t, ⟨v, true, t⟩ ∈ envFile cfg → F v = expandWords F t := fun _ _ h =>
    run_eq_eval local_evalFish (ordered_envFile cfg) h _
  have haround : ∀ {pre post : Str} {v : Var}, F v = [G v] → ' ' ∉ G v → pre ≠ [] → ' ' ∉ pre →
      ' ' ∉ post → expandWords F (around pre v post) = textWords (expand G (around pre v post)) := by
    intro pre post v hv bv hne hpre hpost
    have hword : ' ' ∉ pre ++ G v ++ post := by
      rw [List.mem_append, List.mem_append, not_or, not_or]
      exact ⟨⟨hpre, bv⟩, hpost⟩
    rw [expandWords_around hpre hpost hv, expand_around, textWords_of_word (by simp [hne]) hword]
  have htexts : ∀ (xs : List Str), ∀ x ∈ xs.map text, expandWords F x = textWords (expand G x) := by
    intro xs x hx
    obtain ⟨s, _, rfl⟩ := List.mem_map.mp hx
    rw [expandWords_text, expand_text]
  have hcflags : F .commonCflags = textWords (G .commonCflags) := by
    rw [hG.cflags, heq .commonCflags (cfg.commonCflags .sysrootDir) (by simp [envFile])]
    refine expandWords_shJoin_eq (List.cons_ne_nil _ _) ?_
    rw [List.forall_mem_cons, List.forall_mem_cons]
    exact ⟨htexts [cfg.targetText] _ (by simp), haround hsys wsys.no_blank (by decide) (by decide) (by decide),
      htexts _⟩
  have hcxxflags : F .commonCxxflags = textWords (G .commonCxxflags) := by
    rw [hG.cxxflags, heq .commonCxxflags (commonCxxflags .commonCflags .libcxxDir) (by simp [envFile])]
    refine expandWords_shJoin_eq (List.cons_ne_nil _ _) ?_
    rw [List.forall_mem_cons, List.forall_mem_cons, List.forall_mem_singleton]
    refine ⟨htexts [("-stdlib=libc++" : Str)] _ (by simp), ?_,
      haround hlib wlib.no_blank (by decide) (by decide) (by decide)⟩
    rw [expandWords_ref, expand_ref, hcflags]
  have hldflags : F .commonLdflags = textWords (G .commonLdflags) := by
    rw [hG.ldflags, heq .commonLdflags (cfg.commonLdflags .sysrootDir .libcxxDir) (by simp [envFile])]
    refine expandWords_shJoin_eq (List.cons_ne_nil _ _) ?_
    rw [List.forall_mem_cons, List.forall_mem_cons]
    exact ⟨haround hsys wsys.no_blank (by decide) (by decide) (by decide),
      haround hlib wlib.no_blank (by decide) (by decide) (by decide), htexts _⟩
  refine forall_toolchain ⟨?_, ?_, fun e he => ?_, hcflags, hcxxflags, hldflags⟩
  · exact hsys.trans (textWords_of_word wsys.ne_nil wsys.no_blank).symm
  · exact hlib.trans (textWords_of_word wlib.ne_nil wlib.no_blank).symm
  · exact (htool e he).trans (textWords_of_word (wtool e he).ne_nil (wtool e he).no_blank).symm

end Fish

-- ════════════════════════════════════════════════════════════════════════
-- The four files
-- ════════════════════════════════════════════════════════════════════════

section Agreement

variable {cfg : Config} {loc : Location}

/-- A text is made of its words if no two blanks follow each other. -/
theorem join_textWords {s : Str} (h : [] ∉ s.splitOn ' ') : Py.join [' '] (textWords s) = s := by
  have hall : textWords s = s.splitOn ' ' := by
    refine List.filter_eq_self.mpr fun w hw => ?_
    have hne : w ≠ [] := fun he => h (he ▸ hw)
    simpa using hne
  rw [hall]
  exact List.intercalate_splitOn ' '

theorem nil_not_mem_of_join_textWords {s : Str} (hne : textWords s ≠ [])
    (h : normText (Py.join [' '] (textWords s)) = normText s) : [] ∉ s.splitOn ' ' := by
  have hwords : (Py.join [' '] (textWords s)).splitOn ' ' = textWords s :=
    List.splitOn_intercalate ' ' (fun w hw => (Py.mem_splitOn (List.mem_of_mem_filter hw)).1) hne
  have hlen := congrArg List.length (Paths.normText_eq_iff.mp h)
  rw [List.length_map, List.length_map, hwords] at hlen
  intro hnil
  have hall := List.length_filter_eq_length_iff.mp hlen [] hnil
  exact absurd hall (by decide)

theorem nil_not_mem_splitOn_join {xs : List Str} (hne : xs ≠ []) :
    [] ∉ (Py.join [' '] xs).splitOn ' ' ↔ ∀ x ∈ xs, [] ∉ x.splitOn ' ' := by
  rw [Py.splitOn_join hne, List.mem_flatMap, not_exists]
  exact forall_congr' fun _ => not_and

theorem nil_not_mem_of_word {s : Str} (hne : s ≠ []) (h : ' ' ∉ s) : [] ∉ s.splitOn ' ' := by
  rw [Py.splitOn_of_not_mem h, List.mem_singleton]
  exact hne.symm

theorem generate_eq_ok {files : File → List (Assignment Var)} (h : generate cfg = .ok files) :
    files = File.content cfg := by
  rw [generate] at h
  split at h
  · cases h
  · exact (Except.ok.inj h).symm

theorem value_fish (hblank : ∀ d ∈ [cfg.buildDir, cfg.llvmDir, cfg.sysroot, cfg.libcxx], ' ' ∉ d)
    {v : Var} (hv : v ∈ toolchain) : value (File.content cfg) loc .fish v =
      Py.join [' '] (textWords (value (File.content cfg) loc .bash v)) :=
  congrArg (Py.join [' ']) (fish_eq_textWords loc hblank v hv)

theorem mem_tools_cc : ((Var.cc, "clang") : Var × Str) ∈ tools := List.mem_cons_self

/-- Bash cuts names off at a blank, Make does not. -/
theorem Agree.dirs (h : Agree (File.content cfg) loc) :
    ∀ d ∈ [cfg.buildDir, cfg.llvmDir, cfg.sysroot, cfg.libcxx], ' ' ∉ d := by
  have hM := reads_makefile cfg loc
  obtain ⟨wsys, wlib, wtool⟩ := (reads_bash cfg loc).words (wordTo_root loc .bash)
    fun d _ => blank_not_mem_cut d
  have hsys := Paths.blank_mem_of_normText_eq (h .sysrootDir (by simp [toolchain]) .bash .makefile)
    wsys.no_blank
  have hlib := Paths.blank_mem_of_normText_eq (h .libcxxDir (by simp [toolchain]) .bash .makefile)
    wlib.no_blank
  have hcc := Paths.blank_mem_of_normText_eq (h .cc (by simp [toolchain]) .bash .makefile)
    (wtool _ mem_tools_cc).no_blank
  rw [hM.sysrootDir, hM.buildDir] at hsys
  rw [hM.libcxxDir] at hlib
  rw [hM.tool _ mem_tools_cc, hM.llvmBinDir] at hcc
  simp only [List.mem_append, List.mem_cons, not_or, id] at hsys hlib hcc
  simp only [List.forall_mem_cons]
  exact ⟨hsys.1.2.2, hcc.1.2.2.1, hsys.2.2, hlib.2.2, fun _ hd => nomatch hd⟩

/-- The paths of Make start in the parent of the directory that those of CMake start in. -/
theorem Agree.climbs (h : Agree (File.content cfg) loc) : ∀ d ∈ [cfg.llvmDir, cfg.sysroot, cfg.libcxx],
    loc.comps.length ≤ Paths.climb (cfg.rel id d) := by
  have hblank := h.dirs
  obtain ⟨wsys, wlib, wtool⟩ := (reads_makefile cfg loc).words (wordTo_root loc .makefile) hblank
  obtain ⟨wsys', wlib', wtool'⟩ := (reads_cmake loc hblank).words (wordTo_cmake loc) hblank
  have hsys := (wsys.normText_eq_iff wsys').mp (h .sysrootDir (by simp [toolchain]) .makefile .cmake)
  have hlib := (wlib.normText_eq_iff wlib').mp (h .libcxxDir (by simp [toolchain]) .makefile .cmake)
  have hcc := ((wtool _ mem_tools_cc).normText_eq_iff (wtool' _ mem_tools_cc)).mp
    (h .cc (by simp [toolchain]) .makefile .cmake)
  simp only [List.forall_mem_cons, ← Paths.walk_dropLast_eq_iff]
  exact ⟨List.append_cancel_right hcc, hsys, hlib, fun _ hd => nomatch hd⟩

/-- Fish drops the blanks that Bash keeps. -/
theorem Agree.flags (h : Agree (File.content cfg) loc) :
    ∀ e ∈ cfg.targetText :: cfg.cflagTexts ++ cfg.ldflagTexts, [] ∉ e.splitOn ' ' := by
  have hblank := h.dirs
  have hB := (reads_bash cfg loc).of_no_blank hblank
  obtain ⟨wsys, _⟩ := hB.words (wordTo_root loc .bash) hblank
  -- among the flags there is one with a path in it
  have hwords : ∀ {v : Var} {xs : List Str} {x : Str}, v ∈ toolchain →
      value (File.content cfg) loc .bash v = Py.join [' '] xs → x ∈ xs → x ≠ [] → ' ' ∉ x →
      ∀ e ∈ xs, [] ∉ e.splitOn ' ' := by
    intro v xs x hv hval hx hne hbx
    have hxs := List.ne_nil_of_mem hx
    have hsame := h v hv .fish .bash
    rw [value_fish hblank hv, hval] at hsame
    have hsome : textWords (Py.join [' '] xs) ≠ [] := by
      have hself : x ∈ textWords x := by
        rw [textWords_of_word hne hbx]
        exact List.mem_cons_self
      rw [textWords_join hxs]
      exact List.ne_nil_of_mem (List.mem_flatMap.mpr ⟨x, hx, hself⟩)
    exact (nil_not_mem_splitOn_join hxs).mp (nil_not_mem_of_join_textWords hsome hsame)
  have hcflags := hwords (by simp [toolchain]) hB.cflags_eq (List.mem_cons_of_mem _ List.mem_cons_self)
    (by simp) (by
      rw [List.mem_append, not_or]
      exact ⟨by decide, wsys.no_blank⟩)
  have hldflags := hwords (by simp [toolchain]) hB.ldflags_eq List.mem_cons_self (by simp) (by
    rw [List.mem_append, List.mem_append, not_or, not_or]
    exact ⟨by decide, wsys.no_blank, by decide⟩)
  simp only [List.forall_mem_cons] at hcflags hldflags
  intro e he
  rcases List.mem_append.mp he with he | he
  · rcases List.mem_cons.mp he with rfl | he
    · exact hcflags.1
    · exact hcflags.2.2 e he
  · exact hldflags.2.2 e he

/-- Then Fish has the same values as Bash. -/
theorem Aligned.value_fish_eq (h : Aligned cfg loc) {v : Var} (hv : v ∈ toolchain) :
    value (File.content cfg) loc .fish v = value (File.content cfg) loc .bash v := by
  have hB := (reads_bash cfg loc).of_no_blank h.dirs
  obtain ⟨wsys, wlib, wtool⟩ := hB.words (wordTo_root loc .bash) h.dirs
  have hflags : (∀ e ∈ cfg.targetText :: cfg.cflagTexts, [] ∉ e.splitOn ' ') ∧
      ∀ e ∈ cfg.ldflagTexts, [] ∉ e.splitOn ' ' := List.forall_mem_append.mp h.flags
  have hword : ∀ {pre s post : Str}, ' ' ∉ pre → ' ' ∉ s → ' ' ∉ post → pre ≠ [] →
      [] ∉ (pre ++ (s ++ post)).splitOn ' ' := by
    intro pre s post hpre hs hpost hne
    refine nil_not_mem_of_word (by simp [hne]) ?_
    rw [List.mem_append, List.mem_append, not_or, not_or]
    exact ⟨hpre, hs, hpost⟩
  have hcflags : [] ∉ (value (File.content cfg) loc .bash .commonCflags).splitOn ' ' := by
    rw [hB.cflags_eq, nil_not_mem_splitOn_join (List.cons_ne_nil _ _), List.forall_mem_cons,
      List.forall_mem_cons]
    rw [List.forall_mem_cons] at hflags
    refine ⟨hflags.1.1, ?_, hflags.1.2⟩
    rw [← List.append_nil (value (File.content cfg) loc .bash .sysrootDir)]
    exact hword (by decide) wsys.no_blank List.not_mem_nil (by decide)
  have hspaced : ∀ v ∈ toolchain, [] ∉ (value (File.content cfg) loc .bash v).splitOn ' ' := by
    refine forall_toolchain ⟨nil_not_mem_of_word wsys.ne_nil wsys.no_blank,
      nil_not_mem_of_word wlib.ne_nil wlib.no_blank,
      fun e he => nil_not_mem_of_word (wtool e he).ne_nil (wtool e he).no_blank, hcflags, ?_, ?_⟩
    · rw [hB.cxxflags_eq, nil_not_mem_splitOn_join (List.cons_ne_nil _ _), List.forall_mem_cons,
        List.forall_mem_cons, List.forall_mem_singleton]
      exact ⟨nil_not_mem_of_word (by decide) (by decide), hcflags,
        hword (by decide) wlib.no_blank (by decide) (by decide)⟩
    · rw [hB.ldflags_eq, nil_not_mem_splitOn_join (List.cons_ne_nil _ _), List.forall_mem_cons,
        List.forall_mem_cons]
      exact ⟨hword (by decide) wsys.no_blank (by decide) (by decide),
        hword (by decide) wlib.no_blank (by decide) (by decide), hflags.2⟩
  rw [value_fish h.dirs hv, join_textWords (hspaced v hv)]

theorem Aligned.agree (h : Aligned cfg loc) : Agree (File.content cfg) loc := by
  have hM := reads_makefile cfg loc
  have hB := (reads_bash cfg loc).of_no_blank h.dirs
  have hC := reads_cmake loc h.dirs
  have hclimbs : ∀ d ∈ [cfg.llvmDir, cfg.sysroot, cfg.libcxx],
      walk loc.comps (cfg.rel id d) = walk loc.comps.dropLast (cfg.rel id d) := fun d hd =>
    ((Paths.walk_dropLast_eq_iff _ _).mpr (h.climbs d hd)).symm
  have hmake := hM.agree hB (wordTo_root loc .makefile) (wordTo_root loc .bash) h.dirs fun _ _ => rfl
  have hcmake := hC.agree hB (wordTo_cmake loc) (wordTo_root loc .bash) h.dirs hclimbs
  -- all of them agree with Bash
  have hall : ∀ v ∈ toolchain, ∀ f, normText (value (File.content cfg) loc f v) =
      normText (value (File.content cfg) loc .bash v) := by
    intro v hv f
    cases f with
    | makefile => exact hmake v hv
    | bash => rfl
    | fish => exact congrArg normText (h.value_fish_eq hv)
    | cmake => exact hcmake v hv
  exact fun v hv f g => (hall v hv f).trans (hall v hv g).symm

/-- The definitions as they are written, for any texts. -/
theorem agree_content_iff : Agree (File.content cfg) loc ↔ Aligned cfg loc :=
  ⟨fun ha => ⟨ha.dirs, ha.climbs, ha.flags⟩, Aligned.agree⟩

/-- Where the texts of the configuration are literal, the files define the same toolchain exactly if no
directory name has a blank, the directories lead up to the root of the file system, and the flags are
separated by single blanks. -/
theorem agree_iff_aligned (L : Languages) (hlit : L.Literal cfg) {files : File → List (Assignment Var)}
    (h : generate cfg = .ok files) (loc : Location) : Agree (L.readFiles files) loc ↔ Aligned cfg loc := by
  rw [generate_eq_ok h, hlit.readFiles_content]
  exact agree_content_iff

end Agreement

/-- The configuration in the repository. -/
def waliToml : Config where
  triple := "wasm32-unknown-linux-muslwali"
  llvmVersion := "22.1.3"
  buildDir := "build"
  llvmDir := "llvm"
  sysroot := "sysroot"
  libcxx := "libcxx"
  extraCflags := ["-O0", "-pthread", "-fdeclspec", "-fwasm-exceptions"]
  warningCflags := ["no-implicit-function-declaration", "no-int-conversion",
    "no-incompatible-function-pointer-types", "no-incompatible-pointer-types",
    "no-nullability-completeness"]
  wasmFeatures := ["-mcpu=generic", "-matomics", "-mbulk-memory", "-mexception-handling"]
  link := [("shared-memory", .flag true), ("export-memory", .flag true),
    ("max-memory", .value "2147483648"), ("undefined", .list ["__walirt_wasm_memory_size"])]

theorem generate_waliToml : generate waliToml = .ok (File.content waliToml) := if_neg (by decide +kernel)

/-- No language does anything to the texts in it. -/
theorem literal_waliToml (L : Languages) : L.Literal waliToml := by
  have hall : ∀ s ∈ waliToml.texts, s.all isOrdinary = true := by decide +kernel
  exact fun s hs => L.isLiteral_of_all (hall s hs)

/-- Languages that only read ordinary characters. -/
def ordinaryOnly : Languages where
  isLiteral := isOrdinary
  ordinary := fun _ h => h
  no_braces := by decide
  no_newline := by decide
  read := fun _ t => t.filter fun
    | .chr c => isOrdinary c
    | .ref _ => true
  read_literal := by
    intro f t h
    refine List.filter_eq_self.mpr fun x hx => ?_
    cases x with
    | chr c => exact h c hx
    | ref v => rfl

/-- At the root of the file system there is no level to go up. -/
theorem agree_iff_aligned_root : ∃ files, generate waliToml = .ok files ∧
    Agree (ordinaryOnly.readFiles files) ⟨[], fun _ hc => (nomatch hc), fun _ hc => (nomatch hc)⟩ := by
  refine ⟨_, generate_waliToml, (agree_iff_aligned ordinaryOnly (literal_waliToml _)
    generate_waliToml _).mpr ⟨?_, ?_, ?_⟩⟩
  · decide
  · exact fun _ _ => Nat.zero_le _
  · decide +kernel

/-- A checkout of the repository in `/wali`. -/
def checkout : Location where
  comps := ["wali", "toolchains"]
  isName := by
    rw [List.forall_mem_cons, List.forall_mem_singleton]
    exact ⟨⟨by decide, by decide, by decide, by decide⟩, ⟨by decide, by decide, by decide, by decide⟩⟩
  no_blank := by decide

/-- In a checkout, the build directory of CMake is not that of the other files. -/
theorem files_disagree : ∃ files, generate waliToml = .ok files ∧
    (∀ L : Languages, L.readFiles files = files) ∧
    normText (value files checkout .makefile .sysrootDir) = "/wali/build/sysroot" ∧
    normText (value files checkout .bash .sysrootDir) = "/wali/build/sysroot" ∧
    normText (value files checkout .fish .sysrootDir) = "/wali/build/sysroot" ∧
    normText (value files checkout .cmake .sysrootDir) = "/wali/toolchains/build/sysroot" ∧
    ¬ Agree files checkout := by
  have hbash : normText (value (File.content waliToml) checkout .bash .sysrootDir) =
      "/wali/build/sysroot" := by decide +kernel
  have hcmake : normText (value (File.content waliToml) checkout .cmake .sysrootDir) =
      "/wali/toolchains/build/sysroot" := by decide +kernel
  refine ⟨_, generate_waliToml, fun L => (literal_waliToml L).readFiles_content, by decide +kernel, hbash,
    by decide +kernel, hcmake, fun h => ?_⟩
  have hsame := h .sysrootDir (by simp [toolchain]) .bash .cmake
  rw [hbash, hcmake] at hsame
  exact absurd hsame (by decide)

end Wali.Toolchains
