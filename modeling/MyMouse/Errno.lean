import Mathlib.Data.List.Basic

namespace MyMouse

def EPERM : Int := 1
def ENOENT : Int := 2
def EIO : Int := 5
def ENOEXEC : Int := 8
def EAGAIN : Int := 11
def EBUSY : Int := 16
def EEXIST : Int := 17
def EISDIR : Int := 21
def EINVAL : Int := 22
def ENOSPC : Int := 28
def ENODATA : Int := 61
def ENOTSUP : Int := 134

end MyMouse
