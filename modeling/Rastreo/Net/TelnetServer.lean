import Rastreo.Lib.Memory

/-!
# The login of the telnet console (`telnet_server.c`)

The configured user and password are kept in two fields of 24 bytes, cut to 23. At a login they are
compared with what was entered by `memcmp` over the length of what is kept, so that a longer entry
passes when it begins with it (`authHandler_iff`). The former check of the stack, in the branch not
built, compares with `strcmp`.

The two strings entered lie in memory, each up to its NUL; what lies behind may be anything.
-/

namespace Rastreo.Net

open Rastreo.Lib

/-- `TELNET_SERVER_MAX_USER_SIZE`, `TELNET_SERVER_MAX_PASS_SIZE`. -/
abbrev telnetServerMaxSize : Nat := 24

/-- `t_TELNET_SERVER_USER_PASS`. -/
structure UserPass where
  user : Buf telnetServerMaxSize
  pass : Buf telnetServerMaxSize
  deriving DecidableEq, Repr

/-- `up`, and whether a handler is registered; its parameter is `&up`. -/
structure TelnetServer where
  up : UserPass
  registered : Bool
  deriving DecidableEq, Repr

/-- A field that `telnet_server_start` fills. -/
def telnetField (s : Bytes) : Buf telnetServerMaxSize :=
  Buf.clear.strncpy s (telnetServerMaxSize - 1) (Nat.sub_le _ _)

/-- `telnet_server_start`, and whether it got a handle: a second registration gets none, but `up` is
the new one all the same. -/
def telnetServerStart (s : TelnetServer) (user pass : Bytes) : TelnetServer × Bool :=
  (⟨⟨telnetField user, telnetField pass⟩, true⟩, !s.registered)

/-- `memcmp (entered, kept, strlen (kept)) == 0`. -/
def matchesField (entered : Bytes) (kept : Buf telnetServerMaxSize) : Bool :=
  memcmp kept.text.length entered kept.bytes == 0

/-- `authHandler`; `none` is a NULL parameter. -/
def authHandler (user password : Bytes) : Option UserPass → Bool
  | some up => matchesField user up.user && matchesField password up.pass
  | none => false

/-! ## What is accepted -/

/-- What a field keeps of a string. -/
def kept (s : Bytes) : Bytes := (cstr s).take (telnetServerMaxSize - 1)

theorem text_telnetField (s : Bytes) : (telnetField s).text = kept s := Buf.text_strncpy s _

theorem matchesField_iff (entered s : Bytes) :
    matchesField entered (telnetField s) = true ↔ kept s <+: cstr entered := by
  have hkept : (0 : UInt8) ∉ kept s := fun h => zero_notMem_cstr s (List.mem_of_mem_take h)
  have hbytes : ∃ rest, (telnetField s).bytes = kept s ++ rest := ⟨_, Buf.bytes_strncpy s _⟩
  obtain ⟨rest, hrest⟩ := hbytes
  rw [matchesField, beq_iff_eq, text_telnetField, hrest]
  exact memcmp_text hkept entered rest

/-- **A login is accepted exactly when each string entered begins with what is kept** of the
configured one. -/
theorem authHandler_iff (s : TelnetServer) (cfgUser cfgPass user pass : Bytes) :
    authHandler user pass (some (telnetServerStart s cfgUser cfgPass).1.up) = true ↔
      kept cfgUser <+: cstr user ∧ kept cfgPass <+: cstr pass := by
  unfold authHandler telnetServerStart
  rw [Bool.and_eq_true, matchesField_iff, matchesField_iff]

/-- The login is decided right: it is accepted exactly when both strings are the configured
ones. -/
def Authenticates (s : TelnetServer) (cfgUser cfgPass user pass : Bytes) : Prop :=
  authHandler user pass (some (telnetServerStart s cfgUser cfgPass).1.up) = true ↔
    cstr user = cstr cfgUser ∧ cstr pass = cstr cfgPass

instance (s : TelnetServer) (cfgUser cfgPass user pass : Bytes) :
    Decidable (Authenticates s cfgUser cfgPass user pass) := inferInstanceAs (Decidable (_ ↔ _))

theorem kept_begins (s : Bytes) : kept s <+: cstr s := List.take_prefix _ _

/-- **A login is decided right except when** both strings begin with what is kept and one of them
is not the configured one. -/
theorem authenticates_iff (s : TelnetServer) (cfgUser cfgPass user pass restUser restPass : Bytes) :
    Authenticates s cfgUser cfgPass (user ++ 0 :: restUser) (pass ++ 0 :: restPass) ↔
      ¬ (kept cfgUser <+: cstr user ∧ kept cfgPass <+: cstr pass ∧
        (cstr user ≠ cstr cfgUser ∨ cstr pass ≠ cstr cfgPass)) := by
  have hzero (t rest : Bytes) : cstr (t ++ 0 :: rest) = cstr t := by
    induction t with
    | nil => rfl
    | cons c t ih => rw [List.cons_append, cstr_cons, cstr_cons, ih]
  unfold Authenticates
  rw [authHandler_iff, hzero, hzero]
  constructor
  · rintro hiff ⟨huser, hpass, hne⟩
    obtain ⟨heq, heq'⟩ := hiff.mp ⟨huser, hpass⟩
    exact hne.elim (fun h => h heq) fun h => h heq'
  · intro hnot
    constructor
    · rintro ⟨huser, hpass⟩
      by_contra hne
      rw [not_and_or] at hne
      exact hnot ⟨huser, hpass, hne⟩
    · rintro ⟨huser, hpass⟩
      rw [huser, hpass]
      exact ⟨kept_begins cfgUser, kept_begins cfgPass⟩

/-- The console of `net.c` with one character too many in the password. -/
theorem not_authenticates :
    ¬ ∀ (s : TelnetServer) (cfgUser cfgPass user pass restUser restPass : Bytes),
      Authenticates s cfgUser cfgPass (user ++ 0 :: restUser) (pass ++ 0 :: restPass) := by
  intro hall
  have hx := hall ⟨⟨Buf.clear, Buf.clear⟩, false⟩ (ascii "atis") (ascii "4t1s") (ascii "atis")
    (ascii "4t1sX") [] []
  exact absurd hx (by decide +kernel)

end Rastreo.Net
