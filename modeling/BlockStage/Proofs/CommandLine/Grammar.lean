import BlockStage.CommandLine.Arguments
import BlockStage.Proofs.Value.Number

/-! # The grammar of command lines — options anywhere, words in order

    What reading does with a word depends on the words before it.  Here a
    command line is sorted before anything is read: from the left each
    option for the layout takes the next word, whatever it is
    (`Sorting.ofWords`), and what is left are flags and plain words.
    Reading comes to the same as putting the plain words into their places
    and setting the options afterwards (`takeAll_sorted`).  So the accepted
    lines can be read off the plain words, and two lines are read alike if
    sorting finds the same in them. -/

namespace BlockStage

/-! ## Sorted command lines -/

/-- What stands on a command line. -/
@[ext]
structure Sorting where
  /-- The words that options for the layout have taken. -/
  names : List String
  /-- The words that are neither such an option nor taken by one. -/
  others : List String
  /-- Whether every option for the layout has taken a word. -/
  isComplete : Bool

namespace Sorting

/-- What stands on two command lines, one after the other. -/
instance : Append Sorting where
  append s t :=
    ⟨s.names ++ t.names, s.others ++ t.others, s.isComplete && t.isComplete⟩

/-- An option for the layout and the word that it takes. -/
def pair (name : String) : Sorting := ⟨[name], [], true⟩

/-- A word of its own. -/
def single (word : String) : Sorting := ⟨[], [word], true⟩

/-- A command line is sorted from the left. -/
def ofWords : List String → Sorting
  | [] => ⟨[], [], true⟩
  | "--preset" :: name :: rest => pair name ++ ofWords rest
  | ["--preset"] => ⟨[], [], false⟩
  | word :: rest => single word ++ ofWords rest

/-- The words that raise a flag. -/
def flags : List String :=
  ["--instant", "--trace", "--verbose", "-h", "--help", "-v", "--version"]

/-- The words that are no options. -/
def plain (s : Sorting) : List String :=
  s.others.filter (· ∉ flags)

/-- The layout that is chosen: the last one named, if any. -/
def layout (s : Sorting) : String :=
  s.names.getLast?.getD "robot-manual"

section

variable {s t u : Sorting} {w : String}

@[simp] theorem names_append : (s ++ t).names = s.names ++ t.names := rfl

@[simp] theorem others_append : (s ++ t).others = s.others ++ t.others := rfl

@[simp] theorem isComplete_append :
    (s ++ t).isComplete = (s.isComplete && t.isComplete) := rfl

@[simp] theorem plain_append : (s ++ t).plain = s.plain ++ t.plain :=
  List.filter_append ..

theorem append_assoc : s ++ t ++ u = s ++ (t ++ u) := by
  ext1 <;> simp [Bool.and_assoc]

theorem plain_flag (h : w ∈ flags) : (single w).plain = [] := by
  simp [plain, single, h]

theorem plain_single (h : w ∉ flags) : (single w).plain = [w] := by
  simp [plain, single, h]

/-- Plain words raise no flag. -/
theorem not_flag_of_plain (h : w ∈ s.plain) : w ∉ flags := by
  simpa using (List.mem_filter.1 h).2

/-- A line is taken apart as it is sorted. -/
@[elab_as_elim]
theorem induct {motive : List String → Prop} (nil : motive [])
    (lone : motive ["--preset"])
    (pair : ∀ name rest, motive rest → motive ("--preset" :: name :: rest))
    (word : ∀ w rest, w ≠ "--preset" → motive rest → motive (w :: rest))
    (words : List String) : motive words := by
  fun_induction ofWords words with
  | case1 => exact nil
  | case2 name rest ih => exact pair name rest ih
  | case3 => exact lone
  | case4 w rest hpair hlone ih =>
      refine word w rest ?_ ih
      intro hw
      cases rest with
      | nil => exact hlone hw rfl
      | cons name rest => exact hpair name rest hw rfl

/-- A word that is no option for the layout stands for itself. -/
theorem ofWords_word (h : w ≠ "--preset") (rest : List String) :
    ofWords (w :: rest) = single w ++ ofWords rest := by
  rw [ofWords]
  · exact fun _ _ hw _ => h hw
  · exact fun hw _ => h hw

/-- What stands on a line is what stands on its parts, unless the cut
    parts an option from the word that it takes. -/
theorem ofWords_append {xs : List String} (ys : List String)
    (h : (ofWords xs).isComplete = true) :
    ofWords (xs ++ ys) = ofWords xs ++ ofWords ys := by
  induction xs using induct with
  | nil => rfl
  | lone => cases h
  | pair name rest ih =>
      have hrest := ih h
      show Sorting.pair name ++ ofWords (rest ++ ys) = _
      rw [hrest, ← append_assoc]
      rfl
  | word w rest hw ih =>
      rw [ofWords_word hw] at h ⊢
      rw [List.cons_append, ofWords_word hw, ih h, append_assoc]

/-- A flag behind a parted option is taken for its word. -/
example : ofWords (["run", "--preset"] ++ ["-h"])
    = ⟨["-h"], ["run"], true⟩ := rfl

/-- No flag is an option for the layout. -/
theorem flag_ne (h : w ∈ flags) : w ≠ "--preset" := by
  rintro rfl
  simp [flags] at h

end

end Sorting

namespace Arguments

open Sorting

variable {a b : Arguments} {s t : Sorting} {w : String}

/-! ## Options set afterwards -/

/-- Options are set: of the names the last one counts. -/
def equip (a : Arguments) (s : Sorting) : Arguments where
  command := a.command
  path := a.path
  preset := s.names.getLast?.getD a.preset
  instant := a.instant || decide ("--instant" ∈ s.others)
  trace := a.trace || decide ("--trace" ∈ s.others)
  verbose := a.verbose || decide ("--verbose" ∈ s.others)
  showHelp := a.showHelp || decide ("-h" ∈ s.others ∨ "--help" ∈ s.others)
  showVersion :=
    a.showVersion || decide ("-v" ∈ s.others ∨ "--version" ∈ s.others)

/-- Options may be set one after the other. -/
theorem equip_append : a.equip (s ++ t) = (a.equip s).equip t := by
  unfold equip
  congr 1
  · rw [names_append, List.getLast?_append]
    cases t.names.getLast? <;> rfl
  · simp only [others_append, List.mem_append, Bool.decide_or, Bool.or_assoc]
  · simp only [others_append, List.mem_append, Bool.decide_or, Bool.or_assoc]
  · simp only [others_append, List.mem_append, Bool.decide_or, Bool.or_assoc]
  · simp only [others_append, List.mem_append, Bool.decide_or]
    ac_rfl
  · simp only [others_append, List.mem_append, Bool.decide_or]
    ac_rfl

theorem equip_nil : a.equip (ofWords []) = a := by
  simp [equip, ofWords]

/-- Without flags only the layout is chosen. -/
theorem equip_pair (name : String) :
    a.equip (pair name) = { a with preset := name } := by
  simp [equip, pair]

/-- Plain words set no option. -/
theorem equip_plain (h : w ∉ flags) : a.equip (single w) = a := by
  simp only [flags, List.mem_cons, List.not_mem_nil, or_false, not_or] at h
  simp [equip, single, h, eq_comm]

/-- A flag is raised. -/
theorem take_flag (h : w ∈ flags) : a.take w = .ok (a.equip (single w)) := by
  simp only [flags, List.mem_cons, List.not_mem_nil, or_false] at h
  obtain rfl | rfl | rfl | rfl | rfl | rfl | rfl := h
  all_goals simp [take, Command.named?, equip, single]

/-! ## Plain words -/

/-- The word for a command names it, and no other word does. -/
theorem named?_eq_some_iff {c : Command} :
    Command.named? w = some c ↔ w = c.name := by
  constructor
  · intro h
    unfold Command.named? at h
    split at h <;> cases h <;> rfl
  · rintro rfl
    cases c <;> rfl

/-- The word that is to be the command. -/
theorem take_command (hw : w ∉ flags) (ha : a.command = .none) :
    a.take w = match Command.named? w with
      | some c => .ok { a with command := some c }
      | .none =>
          if w.startsWith "-" then .error (.unknownOption w)
          else .error (.unknownCommand w) := by
  simp only [flags, List.mem_cons, List.not_mem_nil, or_false, not_or] at hw
  unfold take
  rw [ha]
  cases Command.named? w with
  | some c => rfl
  | none => simp [hw]

/-- A word after the command. -/
theorem take_file (hw : w ∉ flags) (ha : a.command.isSome = true) :
    a.take w =
      if w.startsWith "-" then .error (.unknownOption w)
      else if a.path.isNone then .ok { a with path := some w }
      else .error (.unknownCommand w) := by
  simp only [flags, List.mem_cons, List.not_mem_nil, or_false, not_or] at hw
  obtain ⟨c, hc⟩ := Option.isSome_iff_exists.1 ha
  unfold take
  rw [hc]
  cases Command.named? w <;> simp [hw]

/-- What a plain word does has nothing to do with options. -/
theorem take_equip (hw : w ∉ flags) :
    (a.equip s).take w = (a.take w).map (·.equip s) := by
  cases hc : a.command with
  | none =>
      rw [take_command hw hc, take_command (a := a.equip s) hw hc]
      cases Command.named? w with
      | some c => rfl
      | none => cases w.startsWith "-" <;> rfl
  | some c =>
      have ha : a.command.isSome = true := by rw [hc]; rfl
      rw [take_file hw ha, take_file (a := a.equip s) hw ha]
      cases w.startsWith "-" with
      | true => rfl
      | false =>
          cases hp : a.path <;> simp [hp, equip, Except.map]

/-- What plain words do has nothing to do with options. -/
theorem takePlain_equip {ws : List String} (h : ∀ w ∈ ws, w ∉ flags) :
    ws.foldlM take (a.equip s) = (ws.foldlM take a).map (·.equip s) := by
  induction ws generalizing a with
  | nil => rfl
  | cons w ws ih =>
      rw [List.foldlM_cons, List.foldlM_cons, take_equip (h w (by simp))]
      cases a.take w with
      | error f => rfl
      | ok b => exact ih fun v hv => h v (by simp [hv])

/-! ## Reading by sorting -/

/-- The end of reading: if each option for the layout has its word, the
    options are set. -/
def settle (s : Sorting) (a : Arguments) : Except UsageFault Arguments :=
  if s.isComplete then .ok (a.equip s) else .error .presetNeedsName

/-- Options that stand in front are set with the others. -/
theorem settle_append (h : s.isComplete = true) (b : Arguments) :
    settle (s ++ t) b = settle t (b.equip s) := by
  unfold settle
  rw [equip_append, isComplete_append, h, Bool.true_and]

/-- Options that stand in front of plain words are set after them. -/
theorem settle_equip (h : s.isComplete = true) {ws : List String}
    (hws : ∀ w ∈ ws, w ∉ flags) :
    ws.foldlM take (a.equip s) >>= settle t
      = ws.foldlM take a >>= settle (s ++ t) := by
  rw [takePlain_equip hws]
  cases ws.foldlM take a with
  | error f => rfl
  | ok b => exact (settle_append h b).symm

/-- A word that is no option for the layout is taken by itself. -/
theorem takeAll_word (h : w ≠ "--preset") (rest : List String) :
    a.takeAll (w :: rest) = a.take w >>= (·.takeAll rest) := by
  rw [takeAll]
  · exact fun _ _ hw _ => h hw
  · exact fun hw _ => h hw

/-- Reading is to put the plain words into their places and to set the
    options afterwards. -/
theorem takeAll_sorted (a : Arguments) (words : List String) :
    a.takeAll words
      = (ofWords words).plain.foldlM take a >>= settle (ofWords words) := by
  induction words using Sorting.induct generalizing a with
  | nil => exact congrArg Except.ok equip_nil.symm
  | lone => rfl
  | pair name rest ih =>
      rw [takeAll, ih, ← equip_pair,
        settle_equip rfl fun w => not_flag_of_plain]
      rfl
  | word w rest hw ih =>
      rw [takeAll_word hw, ofWords_word hw, plain_append]
      by_cases hflag : w ∈ flags
      -- a flag may as well be raised when the plain words are done with
      · rw [take_flag hflag, plain_flag hflag, List.nil_append,
          ← settle_equip rfl fun w => not_flag_of_plain]
        exact ih _
      · rw [plain_single hflag, List.singleton_append, List.foldlM_cons,
          bind_assoc]
        refine bind_congr fun b => (ih b).trans (bind_congr fun c => ?_)
        rw [settle_append rfl, equip_plain hflag]

/-- All words are read by sorting. -/
theorem read_sorted (words : List String) :
    read words
      = (ofWords words).plain.foldlM take none >>= settle (ofWords words) :=
  takeAll_sorted none words

/-! ## Accepted lines -/

/-- The first plain word is taken if it names a command. -/
theorem take_command_ok_iff (hw : w ∉ flags) (ha : a.command = .none) :
    a.take w = .ok b ↔
      ∃ c : Command, w = c.name ∧ b = { a with command := some c } := by
  rw [take_command hw ha]
  cases hn : Command.named? w with
  | some c =>
      obtain rfl := named?_eq_some_iff.1 hn
      constructor
      · intro h
        exact ⟨c, rfl, (Except.ok.inj h).symm⟩
      · rintro ⟨d, hd, rfl⟩
        rw [named?_eq_some_iff.2 hd] at hn
        cases hn
        rfl
  | none =>
      constructor
      · intro h
        cases hs : w.startsWith "-" <;> simp [hs] at h
      · rintro ⟨c, hc, -⟩
        rw [named?_eq_some_iff.2 hc] at hn
        cases hn

/-- A plain word after the command is taken if there is no file yet and it
    does not look like an option. -/
theorem take_file_ok_iff (hw : w ∉ flags) (ha : a.command.isSome = true) :
    a.take w = .ok b ↔ a.path = .none ∧ w.startsWith "-" = false
      ∧ b = { a with path := some w } := by
  rw [take_file hw ha]
  cases w.startsWith "-" with
  | true => simp
  | false => cases a.path <;> simp [eq_comm]

/-- What plain words ask for: nothing, a command, or a command for a
    file. -/
inductive Asks : List String → Arguments → Prop
  | nothing : Asks [] none
  | command (c : Command) : Asks [c.name] { none with command := some c }
  | file (c : Command) {path : String} : path.startsWith "-" = false →
      Asks [c.name, path] { none with command := some c, path := some path }

/-- Plain words are put into their places one after the other. -/
theorem takePlain_cons_ok_iff {ws : List String} :
    (w :: ws).foldlM take a = .ok b ↔
      ∃ c, a.take w = .ok c ∧ ws.foldlM take c = .ok b := by
  rw [List.foldlM_cons]
  constructor
  · exact bind_ok
  · rintro ⟨c, hc, hws⟩
    rw [hc]
    exact hws

/-- Plain words are put into places if and only if they ask for
    something. -/
theorem takePlain_ok_iff {ws : List String} (h : ∀ w ∈ ws, w ∉ flags) :
    ws.foldlM take none = .ok b ↔ Asks ws b := by
  constructor
  · intro hws
    cases ws with
    | nil =>
        cases hws
        exact .nothing
    | cons w ws =>
        obtain ⟨a, hfirst, hws⟩ := takePlain_cons_ok_iff.1 hws
        obtain ⟨c, rfl, rfl⟩ :=
          (take_command_ok_iff (h w (by simp)) rfl).1 hfirst
        cases ws with
        | nil =>
            cases hws
            exact .command c
        | cons path ws =>
            obtain ⟨a, hsecond, hws⟩ := takePlain_cons_ok_iff.1 hws
            obtain ⟨-, hpath, rfl⟩ :=
              (take_file_ok_iff (h path (by simp)) rfl).1 hsecond
            cases ws with
            | nil =>
                cases hws
                exact .file c hpath
            | cons w ws =>
                -- there is a file already
                obtain ⟨a, hthird, -⟩ := takePlain_cons_ok_iff.1 hws
                cases ((take_file_ok_iff (h w (by simp)) rfl).1 hthird).1
  · intro hasks
    cases hasks with
    | nothing => rfl
    | command c =>
        have hfirst := (take_command_ok_iff (a := none) (h _ (by simp)) rfl).2
          ⟨c, rfl, rfl⟩
        exact takePlain_cons_ok_iff.2 ⟨_, hfirst, rfl⟩
    | file c hpath =>
        have hfirst := (take_command_ok_iff (a := none) (h _ (by simp)) rfl).2
          ⟨c, rfl, rfl⟩
        have hsecond := (take_file_ok_iff
          (a := { none with command := some c }) (h _ (by simp)) rfl).2
          ⟨rfl, hpath, rfl⟩
        exact takePlain_cons_ok_iff.2
          ⟨_, hfirst, takePlain_cons_ok_iff.2 ⟨_, hsecond, rfl⟩⟩

/-- A line is read if every option for the layout has its word and the
    plain words ask for something; the options are set to what they ask. -/
theorem read_ok_iff {words : List String} :
    read words = .ok a ↔ (ofWords words).isComplete = true
      ∧ ∃ b, Asks (ofWords words).plain b ∧ a = b.equip (ofWords words) := by
  have hplain : ∀ w ∈ (ofWords words).plain, w ∉ flags :=
    fun w => not_flag_of_plain
  rw [read_sorted]
  constructor
  · intro h
    obtain ⟨b, hb, h⟩ := bind_ok h
    unfold settle at h
    split at h
    · rename_i hcomplete
      exact ⟨hcomplete, b, (takePlain_ok_iff hplain).1 hb,
        (Except.ok.inj h).symm⟩
    · cases h
  · rintro ⟨hcomplete, b, hb, rfl⟩
    rw [(takePlain_ok_iff hplain).2 hb]
    exact if_pos hcomplete

/-- Plain words that may stand on a line: at most two, none of which begins
    like an option, and the first of which names a command. -/
structure IsUsage (ws : List String) : Prop where
  few : ws.length ≤ 2
  noOption : ∀ w ∈ ws, w.startsWith "-" = false
  command : ∀ w, ws[0]? = some w → w = "run" ∨ w = "compile"

/-- What the words of a sorted line say. -/
structure Gives (s : Sorting) (a : Arguments) : Prop where
  command : a.command.map Command.name = s.plain[0]?
  path : a.path = s.plain[1]?
  preset : a.preset = s.layout
  instant : a.instant = true ↔ "--instant" ∈ s.others
  trace : a.trace = true ↔ "--trace" ∈ s.others
  verbose : a.verbose = true ↔ "--verbose" ∈ s.others
  showHelp : a.showHelp = true ↔ "-h" ∈ s.others ∨ "--help" ∈ s.others
  showVersion : a.showVersion = true ↔
    "-v" ∈ s.others ∨ "--version" ∈ s.others

/-- The word for a command does not begin like an option. -/
theorem name_startsWith (c : Command) : c.name.startsWith "-" = false := by
  cases c <;> simp [Command.name]

/-- The words for commands. -/
theorem exists_name_iff :
    (∃ c : Command, w = c.name) ↔ w = "run" ∨ w = "compile" := by
  constructor
  · rintro ⟨c, rfl⟩
    cases c with
    | run => exact .inl rfl
    | compile => exact .inr rfl
  · rintro (rfl | rfl)
    · exact ⟨.run, rfl⟩
    · exact ⟨.compile, rfl⟩

/-- The plain words that may stand on a line are those that ask for
    something. -/
theorem isUsage_iff {ws : List String} : IsUsage ws ↔ ∃ b, Asks ws b := by
  constructor
  · rintro ⟨hfew, hoption, hcommand⟩
    cases ws with
    | nil => exact ⟨_, .nothing⟩
    | cons w ws =>
        obtain ⟨c, rfl⟩ := exists_name_iff.2 (hcommand w rfl)
        cases ws with
        | nil => exact ⟨_, .command c⟩
        | cons path ws =>
            obtain rfl : ws = [] := by
              rw [← List.length_eq_zero_iff]
              simpa using hfew
            exact ⟨_, .file c (hoption path (by simp))⟩
  · rintro ⟨b, hb⟩
    cases hb with
    | nothing => exact ⟨by simp, by simp, by simp⟩
    | command c =>
        refine ⟨by simp, List.forall_mem_singleton.2 (name_startsWith c), ?_⟩
        intro w hw
        cases hw
        exact exists_name_iff.1 ⟨c, rfl⟩
    | file c hpath =>
        refine ⟨by simp, List.forall_mem_cons.2 ⟨name_startsWith c,
          List.forall_mem_singleton.2 hpath⟩, ?_⟩
        intro w hw
        cases hw
        exact exists_name_iff.1 ⟨c, rfl⟩

/-- What the plain words ask for and the options set is what the line
    says. -/
theorem Asks.gives (h : Asks s.plain b) : Gives s (b.equip s) := by
  have hplaces : b.command.map Command.name = s.plain[0]?
      ∧ b.path = s.plain[1]? := by
    generalize s.plain = ws at h
    cases h <;> exact ⟨rfl, rfl⟩
  have hoptions : b = { none with command := b.command, path := b.path } := by
    generalize s.plain = ws at h
    cases h <;> rfl
  rw [hoptions]
  exact ⟨hplaces.1, hplaces.2, rfl, by simp [equip, none],
    by simp [equip, none], by simp [equip, none], by simp [equip, none],
    by simp [equip, none]⟩

/-- What is read from a line is what the line says. -/
theorem read_gives {words : List String} (h : read words = .ok a) :
    Gives (ofWords words) a := by
  obtain ⟨-, b, hb, rfl⟩ := read_ok_iff.1 h
  exact hb.gives

/-! ## Options in another order -/

/-- Lines on which the same stands, apart from the order of the options and
    the layouts that they name. -/
structure Alike (s t : Sorting) : Prop where
  plain : s.plain = t.plain
  others : ∀ w, w ∈ s.others ↔ w ∈ t.others
  isComplete : s.isComplete = t.isComplete

theorem Alike.symm (h : Alike s t) : Alike t s :=
  ⟨h.plain.symm, fun w => (h.others w).symm, h.isComplete.symm⟩

/-- Another layout is chosen. -/
def withPreset (a : Arguments) (name : String) : Arguments :=
  { a with preset := name }

/-- Where the same stands, the same options are set. -/
theorem equip_alike (h : Alike s t) (name : String) :
    (a.equip s).withPreset name = (a.equip t).withPreset name := by
  simp only [withPreset, equip, h.others]

/-- Where the same stands, reading ends alike. -/
theorem settle_alike (h : Alike s t) (name : String) :
    (settle s a).map (·.withPreset name)
      = (settle t a).map (·.withPreset name) := by
  unfold settle
  rw [h.isComplete]
  cases t.isComplete with
  | true => exact congrArg Except.ok (equip_alike h name)
  | false => rfl

/-- A line is read with the layout that it chooses. -/
theorem read_layout (words : List String) :
    (read words).map (·.withPreset (ofWords words).layout) = read words := by
  cases h : read words with
  | error f => rfl
  | ok a =>
      rw [← (read_gives h).preset]
      rfl

/-- From lines on which the same stands the same is read; only the layout is
    the one that each of them chooses. -/
theorem read_alike {xs ys : List String}
    (h : Alike (ofWords xs) (ofWords ys)) :
    read ys = (read xs).map (·.withPreset (ofWords ys).layout) := by
  have hsame : (read ys).map (·.withPreset (ofWords ys).layout)
      = (read xs).map (·.withPreset (ofWords ys).layout) := by
    rw [read_sorted, read_sorted, h.plain]
    cases (ofWords ys).plain.foldlM take none with
    | error f => rfl
    | ok b => exact (settle_alike h _).symm
  rw [← hsame, read_layout]

/-- Options may be moved past other words, as long as they are not put
    between an option and the word that it takes. -/
theorem alike_moved (options : List String) {before mid : List String}
    (after : List String)
    (hoptions : (ofWords options).isComplete = true)
    (hplain : (ofWords options).plain = [])
    (hbefore : (ofWords before).isComplete = true)
    (hmid : (ofWords mid).isComplete = true) :
    Alike (ofWords (before ++ (options ++ (mid ++ after))))
      (ofWords (before ++ (mid ++ (options ++ after)))) := by
  simp only [ofWords_append _ hbefore, ofWords_append _ hoptions,
    ofWords_append _ hmid]
  refine ⟨?_, fun w => ?_, ?_⟩
  · simp only [plain_append, hplain, List.nil_append]
  · simp only [others_append, List.mem_append]
    exact or_congr_right or_left_comm
  · simp only [isComplete_append, hoptions, hmid, Bool.true_and]

/-- A flag changes nothing by being moved, for it names no layout. -/
theorem read_moved_flag {flag : String} {before mid : List String}
    (after : List String) (hflag : flag ∈ flags)
    (hbefore : (ofWords before).isComplete = true)
    (hmid : (ofWords mid).isComplete = true) :
    read (before ++ flag :: (mid ++ after))
      = read (before ++ (mid ++ flag :: after)) := by
  have hsingle (rest : List String) :
      ofWords (flag :: rest) = single flag ++ ofWords rest :=
    ofWords_word (flag_ne hflag) rest
  have halike := alike_moved [flag] after (by rw [hsingle]; rfl)
    (by rw [hsingle, plain_append, plain_flag hflag]; rfl) hbefore hmid
  have hlayout : (ofWords (before ++ flag :: (mid ++ after))).layout
      = (ofWords (before ++ (mid ++ flag :: after))).layout := by
    unfold layout
    simp only [ofWords_append _ hbefore, ofWords_append _ hmid, hsingle,
      names_append, single, List.nil_append]
  have hread := read_alike halike
  simp only [List.singleton_append] at hread
  rw [hread, ← hlayout, read_layout]

/-- Reading accepts just the grammar, and options may stand in any order.
    A line is accepted if and only if each option for the layout is followed
    by a word, which it takes whatever it is, and what is left without the
    flags are at most two words that do not begin like options, the first of
    which names a command.  What is read are these words, the last layout
    named and the flags that stand on the line.  A flag or an option for the
    layout that is moved past other words, though not between an option and
    its word, changes nothing, not even the complaint about a line that is
    refused; but of the layouts the last one is chosen. -/
theorem grammar_in_any_order :
    (∀ words : List String, (∃ a, read words = .ok a) ↔
      (ofWords words).isComplete = true ∧ IsUsage (ofWords words).plain)
    ∧ (∀ (words : List String) (a : Arguments), read words = .ok a →
      Gives (ofWords words) a)
    ∧ ∀ before mid after : List String,
        (ofWords before).isComplete = true →
        (ofWords mid).isComplete = true →
        (∀ flag ∈ flags, read (before ++ flag :: (mid ++ after))
          = read (before ++ (mid ++ flag :: after)))
        ∧ ∀ name : String,
          let early := before ++ "--preset" :: name :: (mid ++ after)
          let late := before ++ (mid ++ "--preset" :: name :: after)
          read late = (read early).map (·.withPreset (ofWords late).layout)
          ∧ read early
            = (read late).map (·.withPreset (ofWords early).layout) := by
  refine ⟨fun words => ?_, fun words a => read_gives,
    fun before mid after hbefore hmid =>
      ⟨fun flag hflag => ?_, fun name => ?_⟩⟩
  · simp only [read_ok_iff, isUsage_iff]
    constructor
    · rintro ⟨a, hcomplete, b, hb, -⟩
      exact ⟨hcomplete, b, hb⟩
    · rintro ⟨hcomplete, b, hb⟩
      exact ⟨_, hcomplete, b, hb, rfl⟩
  · exact read_moved_flag after hflag hbefore hmid
  · have halike := alike_moved ["--preset", name] after rfl rfl hbefore
      hmid
    exact ⟨read_alike halike, read_alike halike.symm⟩

/-- The beginning of a line: an option for the layout that takes a flag,
    and a command. -/
def opening : List String := ["--preset", "--instant", "run"]

/-- More of a line: a second layout, and a file with the name of a
    command. -/
def sequel : List String := ["--preset", "canvas", "compile"]

/-- What such a line asks for, if it asks for help and for snapshots. -/
def asked (layout : String) : Arguments :=
  ⟨some .run, some "compile", layout, false, true, false, true, false⟩

/-- The flag and the second layout may stand in front of the file or behind
    it. -/
theorem grammar_in_any_order_crowded :
    (ofWords opening).isComplete = true ∧ (ofWords sequel).isComplete = true
    ∧ "-h" ∈ flags
    ∧ read (opening ++ "-h" :: (sequel ++ ["--trace"])) = .ok (asked "canvas")
    ∧ Gives (ofWords (opening ++ "-h" :: (sequel ++ ["--trace"])))
      (asked "canvas")
    ∧ read (opening ++ (sequel ++ ["-h", "--trace"])) = .ok (asked "canvas")
    ∧ read (opening ++ (sequel ++ ["--preset", "stage", "-h", "--trace"]))
      = .ok (asked "stage") := by
  have hflag : "-h" ∈ flags := by decide
  have hplain : Asks ["run", "compile"]
      { none with command := some .run, path := some "compile" } :=
    .file .run (name_startsWith .compile)
  have hread : read (opening ++ "-h" :: (sequel ++ ["--trace"]))
      = .ok (asked "canvas") := read_ok_iff.2 ⟨rfl, _, hplain, rfl⟩
  have hearly : read (opening ++ "--preset" :: "stage"
      :: (sequel ++ ["-h", "--trace"])) = .ok (asked "canvas") :=
    read_ok_iff.2 ⟨rfl, _, hplain, rfl⟩
  refine ⟨rfl, rfl, hflag, hread, grammar_in_any_order.2.1 _ _ hread, ?_, ?_⟩
  · have hmoved := (grammar_in_any_order.2.2 opening sequel ["--trace"] rfl
      rfl).1 "-h" hflag
    exact hmoved.symm.trans hread
  · have hmoved := ((grammar_in_any_order.2.2 opening sequel
      ["-h", "--trace"] rfl rfl).2 "stage").1
    rw [hearly] at hmoved
    exact hmoved

end Arguments

end BlockStage
