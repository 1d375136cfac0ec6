/-!
# Bytes

Libraries, data objects and files hold bytes. Two of them are compared byte by byte, and it is the same
comparison everywhere in the library.
-/

namespace DeviceLibs

instance (priority := high) decidableEqBytes : DecidableEq ByteArray := ByteArray.instDecidableEq

end DeviceLibs
