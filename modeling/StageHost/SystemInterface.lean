import StageHost.Signature
/-
  The functions of the system interface that guests may import: snapshot 1 of its preview.
-/
namespace StageHost.SystemInterface

/-- The name of the function that writes to a stream. -/
def write : String := "fd_write"

/-- The name of the function that ends the program. -/
def exit : String := "proc_exit"

/-- A function that gives an error number. -/
def call (params : List ValueType) : Signature := ⟨params, [.i32]⟩

/-- All functions by their names. -/
def functions : List (String × Signature) :=
  [("args_get", call [.i32, .i32]),
   ("args_sizes_get", call [.i32, .i32]),
   ("environ_get", call [.i32, .i32]),
   ("environ_sizes_get", call [.i32, .i32]),
   ("clock_res_get", call [.i32, .i32]),
   ("clock_time_get", call [.i32, .i64, .i32]),
   ("fd_advise", call [.i32, .i64, .i64, .i32]),
   ("fd_allocate", call [.i32, .i64, .i64]),
   ("fd_close", call [.i32]),
   ("fd_datasync", call [.i32]),
   ("fd_fdstat_get", call [.i32, .i32]),
   ("fd_fdstat_set_flags", call [.i32, .i32]),
   ("fd_fdstat_set_rights", call [.i32, .i64, .i64]),
   ("fd_filestat_get", call [.i32, .i32]),
   ("fd_filestat_set_size", call [.i32, .i64]),
   ("fd_filestat_set_times", call [.i32, .i64, .i64, .i32]),
   ("fd_pread", call [.i32, .i32, .i32, .i64, .i32]),
   ("fd_prestat_get", call [.i32, .i32]),
   ("fd_prestat_dir_name", call [.i32, .i32, .i32]),
   ("fd_pwrite", call [.i32, .i32, .i32, .i64, .i32]),
   ("fd_read", call [.i32, .i32, .i32, .i32]),
   ("fd_readdir", call [.i32, .i32, .i32, .i64, .i32]),
   ("fd_renumber", call [.i32, .i32]),
   ("fd_seek", call [.i32, .i64, .i32, .i32]),
   ("fd_sync", call [.i32]),
   ("fd_tell", call [.i32, .i32]),
   (write, call [.i32, .i32, .i32, .i32]),
   ("path_create_directory", call [.i32, .i32, .i32]),
   ("path_filestat_get", call [.i32, .i32, .i32, .i32, .i32]),
   ("path_filestat_set_times", call [.i32, .i32, .i32, .i32, .i64, .i64, .i32]),
   ("path_link", call [.i32, .i32, .i32, .i32, .i32, .i32, .i32]),
   ("path_open", call [.i32, .i32, .i32, .i32, .i32, .i64, .i64, .i32, .i32]),
   ("path_readlink", call [.i32, .i32, .i32, .i32, .i32, .i32]),
   ("path_remove_directory", call [.i32, .i32, .i32]),
   ("path_rename", call [.i32, .i32, .i32, .i32, .i32, .i32]),
   ("path_symlink", call [.i32, .i32, .i32, .i32, .i32]),
   ("path_unlink_file", call [.i32, .i32, .i32]),
   ("poll_oneoff", call [.i32, .i32, .i32, .i32]),
   (exit, ⟨[.i32], []⟩),
   ("proc_raise", call [.i32]),
   ("random_get", call [.i32, .i32]),
   ("sched_yield", call []),
   ("sock_accept", call [.i32, .i32, .i32]),
   ("sock_recv", call [.i32, .i32, .i32, .i32, .i32, .i32]),
   ("sock_send", call [.i32, .i32, .i32, .i32, .i32]),
   ("sock_shutdown", call [.i32, .i32])]

/-- Whether a function of that name and signature exists. -/
def provides (name : String) (signature : Signature) : Bool :=
  functions.lookup name == some signature

end StageHost.SystemInterface
