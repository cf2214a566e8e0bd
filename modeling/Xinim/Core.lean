import Mathlib.Data.Int.Basic

/-! Shared vocabulary of the kernel models (include/xinim/core_types.hpp).
`xinim::pid_t` is `std::int32_t`; no modelled code does arithmetic on a pid,
it only compares pids with each other and with the sentinels `-1` and `0`,
so a pid is an integer here. -/

namespace Xinim

abbrev Pid := ℤ

end Xinim
