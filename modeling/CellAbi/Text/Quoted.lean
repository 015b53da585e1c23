import CellAbi.Text.Span

/-!
# Quoted text

String and character literals as they appear in generated source and in messages.  A quote and a
backslash are escaped, line breaks and tabs have short forms, and every character that does not
print on its own (controls, separators, unassigned code points, combining marks, fillers) is
written as its code point in braces.
-/

namespace CellAbi.Text

/-- Code points written by number (Unicode 17): those of the categories Cc, Cf, Cs, Co, Cn, Zl, Zp
and Zs other than the space, the marks with the property Grapheme_Extend, and those with the
property Default_Ignorable_Code_Point. -/
def escapedSpans : List (Nat × Nat × Nat) := [
  (0x0, 0x1F, 1), (0x7F, 0xA0, 1), (0xAD, 0xAD, 1), (0x300, 0x36F, 1), (0x378, 0x379, 1),
  (0x380, 0x383, 1), (0x38B, 0x38B, 1), (0x38D, 0x38D, 1), (0x3A2, 0x3A2, 1), (0x483, 0x489, 1),
  (0x530, 0x530, 1), (0x557, 0x558, 1), (0x58B, 0x58C, 1), (0x590, 0x5BD, 1), (0x5BF, 0x5BF, 1),
  (0x5C1, 0x5C2, 1), (0x5C4, 0x5C5, 1), (0x5C7, 0x5CF, 1), (0x5EB, 0x5EE, 1), (0x5F5, 0x605, 1),
  (0x610, 0x61A, 1), (0x61C, 0x61C, 1), (0x64B, 0x65F, 1), (0x670, 0x670, 1), (0x6D6, 0x6DD, 1),
  (0x6DF, 0x6E4, 1), (0x6E7, 0x6E8, 1), (0x6EA, 0x6ED, 1), (0x70E, 0x70F, 1), (0x711, 0x711, 1),
  (0x730, 0x74C, 1), (0x7A6, 0x7B0, 1), (0x7B2, 0x7BF, 1), (0x7EB, 0x7F3, 1), (0x7FB, 0x7FD, 1),
  (0x816, 0x819, 1), (0x81B, 0x823, 1), (0x825, 0x827, 1), (0x829, 0x82F, 1), (0x83F, 0x83F, 1),
  (0x859, 0x85D, 1), (0x85F, 0x85F, 1), (0x86B, 0x86F, 1), (0x890, 0x89F, 1), (0x8CA, 0x902, 1),
  (0x93A, 0x93A, 1), (0x93C, 0x93C, 1), (0x941, 0x948, 1), (0x94D, 0x94D, 1), (0x951, 0x957, 1),
  (0x962, 0x963, 1), (0x981, 0x981, 1), (0x984, 0x984, 1), (0x98D, 0x98E, 1), (0x991, 0x992, 1),
  (0x9A9, 0x9A9, 1), (0x9B1, 0x9B1, 1), (0x9B3, 0x9B5, 1), (0x9BA, 0x9BC, 1), (0x9BE, 0x9BE, 1),
  (0x9C1, 0x9C6, 1), (0x9C9, 0x9CA, 1), (0x9CD, 0x9CD, 1), (0x9CF, 0x9DB, 1), (0x9DE, 0x9DE, 1),
  (0x9E2, 0x9E5, 1), (0x9FE, 0xA02, 1), (0xA04, 0xA04, 1), (0xA0B, 0xA0E, 1), (0xA11, 0xA12, 1),
  (0xA29, 0xA29, 1), (0xA31, 0xA31, 1), (0xA34, 0xA34, 1), (0xA37, 0xA37, 1), (0xA3A, 0xA3D, 1),
  (0xA41, 0xA58, 1), (0xA5D, 0xA5D, 1), (0xA5F, 0xA65, 1), (0xA70, 0xA71, 1), (0xA75, 0xA75, 1),
  (0xA77, 0xA82, 1), (0xA84, 0xA84, 1), (0xA8E, 0xA8E, 1), (0xA92, 0xA92, 1), (0xAA9, 0xAA9, 1),
  (0xAB1, 0xAB1, 1), (0xAB4, 0xAB4, 1), (0xABA, 0xABC, 1), (0xAC1, 0xAC8, 1), (0xACA, 0xACA, 1),
  (0xACD, 0xACF, 1), (0xAD1, 0xADF, 1), (0xAE2, 0xAE5, 1), (0xAF2, 0xAF8, 1), (0xAFA, 0xB01, 1),
  (0xB04, 0xB04, 1), (0xB0D, 0xB0E, 1), (0xB11, 0xB12, 1), (0xB29, 0xB29, 1), (0xB31, 0xB31, 1),
  (0xB34, 0xB34, 1), (0xB3A, 0xB3C, 1), (0xB3E, 0xB3F, 1), (0xB41, 0xB46, 1), (0xB49, 0xB4A, 1),
  (0xB4D, 0xB5B, 1), (0xB5E, 0xB5E, 1), (0xB62, 0xB65, 1), (0xB78, 0xB82, 1), (0xB84, 0xB84, 1),
  (0xB8B, 0xB8D, 1), (0xB91, 0xB91, 1), (0xB96, 0xB98, 1), (0xB9B, 0xB9B, 1), (0xB9D, 0xB9D, 1),
  (0xBA0, 0xBA2, 1), (0xBA5, 0xBA7, 1), (0xBAB, 0xBAD, 1), (0xBBA, 0xBBE, 1), (0xBC0, 0xBC0, 1),
  (0xBC3, 0xBC5, 1), (0xBC9, 0xBC9, 1), (0xBCD, 0xBCF, 1), (0xBD1, 0xBE5, 1), (0xBFB, 0xC00, 1),
  (0xC04, 0xC04, 1), (0xC0D, 0xC0D, 1), (0xC11, 0xC11, 1), (0xC29, 0xC29, 1), (0xC3A, 0xC3C, 1),
  (0xC3E, 0xC40, 1), (0xC45, 0xC57, 1), (0xC5B, 0xC5B, 1), (0xC5E, 0xC5F, 1), (0xC62, 0xC65, 1),
  (0xC70, 0xC76, 1), (0xC81, 0xC81, 1), (0xC8D, 0xC8D, 1), (0xC91, 0xC91, 1), (0xCA9, 0xCA9, 1),
  (0xCB4, 0xCB4, 1), (0xCBA, 0xCBC, 1), (0xCBF, 0xCC0, 1), (0xCC2, 0xCC2, 1), (0xCC5, 0xCDB, 1),
  (0xCDF, 0xCDF, 1), (0xCE2, 0xCE5, 1), (0xCF0, 0xCF0, 1), (0xCF4, 0xD01, 1), (0xD0D, 0xD0D, 1),
  (0xD11, 0xD11, 1), (0xD3B, 0xD3C, 1), (0xD3E, 0xD3E, 1), (0xD41, 0xD45, 1), (0xD49, 0xD49, 1),
  (0xD4D, 0xD4D, 1), (0xD50, 0xD53, 1), (0xD57, 0xD57, 1), (0xD62, 0xD65, 1), (0xD80, 0xD81, 1),
  (0xD84, 0xD84, 1), (0xD97, 0xD99, 1), (0xDB2, 0xDB2, 1), (0xDBC, 0xDBC, 1), (0xDBE, 0xDBF, 1),
  (0xDC7, 0xDCF, 1), (0xDD2, 0xDD7, 1), (0xDDF, 0xDE5, 1), (0xDF0, 0xDF1, 1), (0xDF5, 0xE00, 1),
  (0xE31, 0xE31, 1), (0xE34, 0xE3E, 1), (0xE47, 0xE4E, 1), (0xE5C, 0xE80, 1), (0xE83, 0xE83, 1),
  (0xE85, 0xE85, 1), (0xE8B, 0xE8B, 1), (0xEA4, 0xEA4, 1), (0xEA6, 0xEA6, 1), (0xEB1, 0xEB1, 1),
  (0xEB4, 0xEBC, 1), (0xEBE, 0xEBF, 1), (0xEC5, 0xEC5, 1), (0xEC7, 0xECF, 1), (0xEDA, 0xEDB, 1),
  (0xEE0, 0xEFF, 1), (0xF18, 0xF19, 1), (0xF35, 0xF39, 2), (0xF48, 0xF48, 1), (0xF6D, 0xF7E, 1),
  (0xF80, 0xF84, 1), (0xF86, 0xF87, 1), (0xF8D, 0xFBD, 1), (0xFC6, 0xFC6, 1), (0xFCD, 0xFCD, 1),
  (0xFDB, 0xFFF, 1), (0x102D, 0x1030, 1), (0x1032, 0x1037, 1), (0x1039, 0x103A, 1),
  (0x103D, 0x103E, 1), (0x1058, 0x1059, 1), (0x105E, 0x1060, 1), (0x1071, 0x1074, 1),
  (0x1082, 0x1082, 1), (0x1085, 0x1086, 1), (0x108D, 0x108D, 1), (0x109D, 0x109D, 1),
  (0x10C6, 0x10C6, 1), (0x10C8, 0x10CC, 1), (0x10CE, 0x10CF, 1), (0x115F, 0x1160, 1),
  (0x1249, 0x1249, 1), (0x124E, 0x124F, 1), (0x1257, 0x1257, 1), (0x1259, 0x1259, 1),
  (0x125E, 0x125F, 1), (0x1289, 0x1289, 1), (0x128E, 0x128F, 1), (0x12B1, 0x12B1, 1),
  (0x12B6, 0x12B7, 1), (0x12BF, 0x12BF, 1), (0x12C1, 0x12C1, 1), (0x12C6, 0x12C7, 1),
  (0x12D7, 0x12D7, 1), (0x1311, 0x1311, 1), (0x1316, 0x1317, 1), (0x135B, 0x135F, 1),
  (0x137D, 0x137F, 1), (0x139A, 0x139F, 1), (0x13F6, 0x13F7, 1), (0x13FE, 0x13FF, 1),
  (0x1680, 0x1680, 1), (0x169D, 0x169F, 1), (0x16F9, 0x16FF, 1), (0x1712, 0x171E, 1),
  (0x1732, 0x1734, 1), (0x1737, 0x173F, 1), (0x1752, 0x175F, 1), (0x176D, 0x176D, 1),
  (0x1771, 0x177F, 1), (0x17B4, 0x17B5, 1), (0x17B7, 0x17BD, 1), (0x17C6, 0x17C6, 1),
  (0x17C9, 0x17D3, 1), (0x17DD, 0x17DF, 1), (0x17EA, 0x17EF, 1), (0x17FA, 0x17FF, 1),
  (0x180B, 0x180F, 1), (0x181A, 0x181F, 1), (0x1879, 0x187F, 1), (0x1885, 0x1886, 1),
  (0x18A9, 0x18A9, 1), (0x18AB, 0x18AF, 1), (0x18F6, 0x18FF, 1), (0x191F, 0x1922, 1),
  (0x1927, 0x1928, 1), (0x192C, 0x192F, 1), (0x1932, 0x1932, 1), (0x1939, 0x193F, 1),
  (0x1941, 0x1943, 1), (0x196E, 0x196F, 1), (0x1975, 0x197F, 1), (0x19AC, 0x19AF, 1),
  (0x19CA, 0x19CF, 1), (0x19DB, 0x19DD, 1), (0x1A17, 0x1A18, 1), (0x1A1B, 0x1A1D, 1),
  (0x1A56, 0x1A56, 1), (0x1A58, 0x1A60, 1), (0x1A62, 0x1A62, 1), (0x1A65, 0x1A6C, 1),
  (0x1A73, 0x1A7F, 1), (0x1A8A, 0x1A8F, 1), (0x1A9A, 0x1A9F, 1), (0x1AAE, 0x1B03, 1),
  (0x1B34, 0x1B3D, 1), (0x1B42, 0x1B44, 1), (0x1B4D, 0x1B4D, 1), (0x1B6B, 0x1B73, 1),
  (0x1B80, 0x1B81, 1), (0x1BA2, 0x1BA5, 1), (0x1BA8, 0x1BAD, 1), (0x1BE6, 0x1BE6, 1),
  (0x1BE8, 0x1BE9, 1), (0x1BED, 0x1BED, 1), (0x1BEF, 0x1BFB, 1), (0x1C2C, 0x1C33, 1),
  (0x1C36, 0x1C3A, 1), (0x1C4A, 0x1C4C, 1), (0x1C8B, 0x1C8F, 1), (0x1CBB, 0x1CBC, 1),
  (0x1CC8, 0x1CD2, 1), (0x1CD4, 0x1CE0, 1), (0x1CE2, 0x1CE8, 1), (0x1CED, 0x1CED, 1),
  (0x1CF4, 0x1CF4, 1), (0x1CF8, 0x1CF9, 1), (0x1CFB, 0x1CFF, 1), (0x1DC0, 0x1DFF, 1),
  (0x1F16, 0x1F17, 1), (0x1F1E, 0x1F1F, 1), (0x1F46, 0x1F47, 1), (0x1F4E, 0x1F4F, 1),
  (0x1F58, 0x1F5E, 2), (0x1F7E, 0x1F7F, 1), (0x1FB5, 0x1FB5, 1), (0x1FC5, 0x1FC5, 1),
  (0x1FD4, 0x1FD5, 1), (0x1FDC, 0x1FDC, 1), (0x1FF0, 0x1FF1, 1), (0x1FF5, 0x1FF5, 1),
  (0x1FFF, 0x200F, 1), (0x2028, 0x202F, 1), (0x205F, 0x206F, 1), (0x2072, 0x2073, 1),
  (0x208F, 0x208F, 1), (0x209D, 0x209F, 1), (0x20C2, 0x20FF, 1), (0x218C, 0x218F, 1),
  (0x242A, 0x243F, 1), (0x244B, 0x245F, 1), (0x2B74, 0x2B75, 1), (0x2CEF, 0x2CF1, 1),
  (0x2CF4, 0x2CF8, 1), (0x2D26, 0x2D26, 1), (0x2D28, 0x2D2C, 1), (0x2D2E, 0x2D2F, 1),
  (0x2D68, 0x2D6E, 1), (0x2D71, 0x2D7F, 1), (0x2D97, 0x2D9F, 1), (0x2DA7, 0x2DA7, 1),
  (0x2DAF, 0x2DAF, 1), (0x2DB7, 0x2DB7, 1), (0x2DBF, 0x2DBF, 1), (0x2DC7, 0x2DC7, 1),
  (0x2DCF, 0x2DCF, 1), (0x2DD7, 0x2DD7, 1), (0x2DDF, 0x2DFF, 1), (0x2E5E, 0x2E7F, 1),
  (0x2E9A, 0x2E9A, 1), (0x2EF4, 0x2EFF, 1), (0x2FD6, 0x2FEF, 1), (0x3000, 0x3000, 1),
  (0x302A, 0x302F, 1), (0x3040, 0x3040, 1), (0x3097, 0x309A, 1), (0x3100, 0x3104, 1),
  (0x3130, 0x3130, 1), (0x3164, 0x3164, 1), (0x318F, 0x318F, 1), (0x31E6, 0x31EE, 1),
  (0x321F, 0x321F, 1), (0xA48D, 0xA48F, 1), (0xA4C7, 0xA4CF, 1), (0xA62C, 0xA63F, 1),
  (0xA66F, 0xA672, 1), (0xA674, 0xA67D, 1), (0xA69E, 0xA69F, 1), (0xA6F0, 0xA6F1, 1),
  (0xA6F8, 0xA6FF, 1), (0xA7DD, 0xA7F0, 1), (0xA802, 0xA802, 1), (0xA806, 0xA806, 1),
  (0xA80B, 0xA80B, 1), (0xA825, 0xA826, 1), (0xA82C, 0xA82F, 1), (0xA83A, 0xA83F, 1),
  (0xA878, 0xA87F, 1), (0xA8C4, 0xA8CD, 1), (0xA8DA, 0xA8F1, 1), (0xA8FF, 0xA8FF, 1),
  (0xA926, 0xA92D, 1), (0xA947, 0xA951, 1), (0xA953, 0xA95E, 1), (0xA97D, 0xA982, 1),
  (0xA9B3, 0xA9B3, 1), (0xA9B6, 0xA9B9, 1), (0xA9BC, 0xA9BD, 1), (0xA9C0, 0xA9C0, 1),
  (0xA9CE, 0xA9CE, 1), (0xA9DA, 0xA9DD, 1), (0xA9E5, 0xA9E5, 1), (0xA9FF, 0xA9FF, 1),
  (0xAA29, 0xAA2E, 1), (0xAA31, 0xAA32, 1), (0xAA35, 0xAA3F, 1), (0xAA43, 0xAA43, 1),
  (0xAA4C, 0xAA4C, 1), (0xAA4E, 0xAA4F, 1), (0xAA5A, 0xAA5B, 1), (0xAA7C, 0xAA7C, 1),
  (0xAAB0, 0xAAB0, 1), (0xAAB2, 0xAAB4, 1), (0xAAB7, 0xAAB8, 1), (0xAABE, 0xAABF, 1),
  (0xAAC1, 0xAAC1, 1), (0xAAC3, 0xAADA, 1), (0xAAEC, 0xAAED, 1), (0xAAF6, 0xAB00, 1),
  (0xAB07, 0xAB08, 1), (0xAB0F, 0xAB10, 1), (0xAB17, 0xAB1F, 1), (0xAB27, 0xAB27, 1),
  (0xAB2F, 0xAB2F, 1), (0xAB6C, 0xAB6F, 1), (0xABE5, 0xABE5, 1), (0xABE8, 0xABE8, 1),
  (0xABED, 0xABEF, 1), (0xABFA, 0xABFF, 1), (0xD7A4, 0xD7AF, 1), (0xD7C7, 0xD7CA, 1),
  (0xD7FC, 0xF8FF, 1), (0xFA6E, 0xFA6F, 1), (0xFADA, 0xFAFF, 1), (0xFB07, 0xFB12, 1),
  (0xFB18, 0xFB1C, 1), (0xFB1E, 0xFB1E, 1), (0xFB37, 0xFB37, 1), (0xFB3D, 0xFB3D, 1),
  (0xFB3F, 0xFB3F, 1), (0xFB42, 0xFB42, 1), (0xFB45, 0xFB45, 1), (0xFDD0, 0xFDEF, 1),
  (0xFE00, 0xFE0F, 1), (0xFE1A, 0xFE2F, 1), (0xFE53, 0xFE53, 1), (0xFE67, 0xFE67, 1),
  (0xFE6C, 0xFE6F, 1), (0xFE75, 0xFE75, 1), (0xFEFD, 0xFF00, 1), (0xFFA0, 0xFFA0, 1),
  (0xFFBF, 0xFFC1, 1), (0xFFC8, 0xFFC9, 1), (0xFFD0, 0xFFD1, 1), (0xFFD8, 0xFFD9, 1),
  (0xFFDD, 0xFFDF, 1), (0xFFE7, 0xFFE7, 1), (0xFFEF, 0xFFFB, 1), (0xFFFE, 0xFFFF, 1),
  (0x1000C, 0x1000C, 1), (0x10027, 0x10027, 1), (0x1003B, 0x1003B, 1), (0x1003E, 0x1003E, 1),
  (0x1004E, 0x1004F, 1), (0x1005E, 0x1007F, 1), (0x100FB, 0x100FF, 1), (0x10103, 0x10106, 1),
  (0x10134, 0x10136, 1), (0x1018F, 0x1018F, 1), (0x1019D, 0x1019F, 1), (0x101A1, 0x101CF, 1),
  (0x101FD, 0x1027F, 1), (0x1029D, 0x1029F, 1), (0x102D1, 0x102E0, 1), (0x102FC, 0x102FF, 1),
  (0x10324, 0x1032C, 1), (0x1034B, 0x1034F, 1), (0x10376, 0x1037F, 1), (0x1039E, 0x1039E, 1),
  (0x103C4, 0x103C7, 1), (0x103D6, 0x103FF, 1), (0x1049E, 0x1049F, 1), (0x104AA, 0x104AF, 1),
  (0x104D4, 0x104D7, 1), (0x104FC, 0x104FF, 1), (0x10528, 0x1052F, 1), (0x10564, 0x1056E, 1),
  (0x1057B, 0x1057B, 1), (0x1058B, 0x1058B, 1), (0x10593, 0x10593, 1), (0x10596, 0x10596, 1),
  (0x105A2, 0x105A2, 1), (0x105B2, 0x105B2, 1), (0x105BA, 0x105BA, 1), (0x105BD, 0x105BF, 1),
  (0x105F4, 0x105FF, 1), (0x10737, 0x1073F, 1), (0x10756, 0x1075F, 1), (0x10768, 0x1077F, 1),
  (0x10786, 0x10786, 1), (0x107B1, 0x107B1, 1), (0x107BB, 0x107FF, 1), (0x10806, 0x10807, 1),
  (0x10809, 0x10809, 1), (0x10836, 0x10836, 1), (0x10839, 0x1083B, 1), (0x1083D, 0x1083E, 1),
  (0x10856, 0x10856, 1), (0x1089F, 0x108A6, 1), (0x108B0, 0x108DF, 1), (0x108F3, 0x108F3, 1),
  (0x108F6, 0x108FA, 1), (0x1091C, 0x1091E, 1), (0x1093A, 0x1093E, 1), (0x1095A, 0x1097F, 1),
  (0x109B8, 0x109BB, 1), (0x109D0, 0x109D1, 1), (0x10A01, 0x10A0F, 1), (0x10A14, 0x10A14, 1),
  (0x10A18, 0x10A18, 1), (0x10A36, 0x10A3F, 1), (0x10A49, 0x10A4F, 1), (0x10A59, 0x10A5F, 1),
  (0x10AA0, 0x10ABF, 1), (0x10AE5, 0x10AEA, 1), (0x10AF7, 0x10AFF, 1), (0x10B36, 0x10B38, 1),
  (0x10B56, 0x10B57, 1), (0x10B73, 0x10B77, 1), (0x10B92, 0x10B98, 1), (0x10B9D, 0x10BA8, 1),
  (0x10BB0, 0x10BFF, 1), (0x10C49, 0x10C7F, 1), (0x10CB3, 0x10CBF, 1), (0x10CF3, 0x10CF9, 1),
  (0x10D24, 0x10D2F, 1), (0x10D3A, 0x10D3F, 1), (0x10D66, 0x10D6D, 1), (0x10D86, 0x10D8D, 1),
  (0x10D90, 0x10E5F, 1), (0x10E7F, 0x10E7F, 1), (0x10EAA, 0x10EAC, 1), (0x10EAE, 0x10EAF, 1),
  (0x10EB2, 0x10EC1, 1), (0x10EC8, 0x10ECF, 1), (0x10ED9, 0x10EFF, 1), (0x10F28, 0x10F2F, 1),
  (0x10F46, 0x10F50, 1), (0x10F5A, 0x10F6F, 1), (0x10F82, 0x10F85, 1), (0x10F8A, 0x10FAF, 1),
  (0x10FCC, 0x10FDF, 1), (0x10FF7, 0x10FFF, 1), (0x11001, 0x11001, 1), (0x11038, 0x11046, 1),
  (0x1104E, 0x11051, 1), (0x11070, 0x11070, 1), (0x11073, 0x11074, 1), (0x11076, 0x11081, 1),
  (0x110B3, 0x110B6, 1), (0x110B9, 0x110BA, 1), (0x110BD, 0x110BD, 1), (0x110C2, 0x110CF, 1),
  (0x110E9, 0x110EF, 1), (0x110FA, 0x11102, 1), (0x11127, 0x1112B, 1), (0x1112D, 0x11135, 1),
  (0x11148, 0x1114F, 1), (0x11173, 0x11173, 1), (0x11177, 0x11181, 1), (0x111B6, 0x111BE, 1),
  (0x111C0, 0x111C0, 1), (0x111C9, 0x111CC, 1), (0x111CF, 0x111CF, 1), (0x111E0, 0x111E0, 1),
  (0x111F5, 0x111FF, 1), (0x11212, 0x11212, 1), (0x1122F, 0x11231, 1), (0x11234, 0x11237, 1),
  (0x1123E, 0x1123E, 1), (0x11241, 0x1127F, 1), (0x11287, 0x11287, 1), (0x11289, 0x11289, 1),
  (0x1128E, 0x1128E, 1), (0x1129E, 0x1129E, 1), (0x112AA, 0x112AF, 1), (0x112DF, 0x112DF, 1),
  (0x112E3, 0x112EF, 1), (0x112FA, 0x11301, 1), (0x11304, 0x11304, 1), (0x1130D, 0x1130E, 1),
  (0x11311, 0x11312, 1), (0x11329, 0x11329, 1), (0x11331, 0x11331, 1), (0x11334, 0x11334, 1),
  (0x1133A, 0x1133C, 1), (0x1133E, 0x1133E, 1), (0x11340, 0x11340, 1), (0x11345, 0x11346, 1),
  (0x11349, 0x1134A, 1), (0x1134D, 0x1134F, 1), (0x11351, 0x1135C, 1), (0x11364, 0x1137F, 1),
  (0x1138A, 0x1138A, 1), (0x1138C, 0x1138D, 1), (0x1138F, 0x1138F, 1), (0x113B6, 0x113B6, 1),
  (0x113B8, 0x113B8, 1), (0x113BB, 0x113C9, 1), (0x113CB, 0x113CB, 1), (0x113CE, 0x113D0, 1),
  (0x113D2, 0x113D2, 1), (0x113D6, 0x113D6, 1), (0x113D9, 0x113FF, 1), (0x11438, 0x1143F, 1),
  (0x11442, 0x11444, 1), (0x11446, 0x11446, 1), (0x1145C, 0x1145C, 1), (0x1145E, 0x1145E, 1),
  (0x11462, 0x1147F, 1), (0x114B0, 0x114B0, 1), (0x114B3, 0x114B8, 1), (0x114BA, 0x114BA, 1),
  (0x114BD, 0x114BD, 1), (0x114BF, 0x114C0, 1), (0x114C2, 0x114C3, 1), (0x114C8, 0x114CF, 1),
  (0x114DA, 0x1157F, 1), (0x115AF, 0x115AF, 1), (0x115B2, 0x115B7, 1), (0x115BC, 0x115BD, 1),
  (0x115BF, 0x115C0, 1), (0x115DC, 0x115FF, 1), (0x11633, 0x1163A, 1), (0x1163D, 0x1163D, 1),
  (0x1163F, 0x11640, 1), (0x11645, 0x1164F, 1), (0x1165A, 0x1165F, 1), (0x1166D, 0x1167F, 1),
  (0x116AB, 0x116AB, 1), (0x116AD, 0x116AD, 1), (0x116B0, 0x116B7, 1), (0x116BA, 0x116BF, 1),
  (0x116CA, 0x116CF, 1), (0x116E4, 0x116FF, 1), (0x1171B, 0x1171D, 1), (0x1171F, 0x1171F, 1),
  (0x11722, 0x11725, 1), (0x11727, 0x1172F, 1), (0x11747, 0x117FF, 1), (0x1182F, 0x11837, 1),
  (0x11839, 0x1183A, 1), (0x1183C, 0x1189F, 1), (0x118F3, 0x118FE, 1), (0x11907, 0x11908, 1),
  (0x1190A, 0x1190B, 1), (0x11914, 0x11914, 1), (0x11917, 0x11917, 1), (0x11930, 0x11930, 1),
  (0x11936, 0x11936, 1), (0x11939, 0x1193E, 1), (0x11943, 0x11943, 1), (0x11947, 0x1194F, 1),
  (0x1195A, 0x1199F, 1), (0x119A8, 0x119A9, 1), (0x119D4, 0x119DB, 1), (0x119E0, 0x119E0, 1),
  (0x119E5, 0x119FF, 1), (0x11A01, 0x11A0A, 1), (0x11A33, 0x11A38, 1), (0x11A3B, 0x11A3E, 1),
  (0x11A47, 0x11A4F, 1), (0x11A51, 0x11A56, 1), (0x11A59, 0x11A5B, 1), (0x11A8A, 0x11A96, 1),
  (0x11A98, 0x11A99, 1), (0x11AA3, 0x11AAF, 1), (0x11AF9, 0x11AFF, 1), (0x11B0A, 0x11B60, 1),
  (0x11B62, 0x11B64, 1), (0x11B66, 0x11B66, 1), (0x11B68, 0x11BBF, 1), (0x11BE2, 0x11BEF, 1),
  (0x11BFA, 0x11BFF, 1), (0x11C09, 0x11C09, 1), (0x11C30, 0x11C3D, 1), (0x11C3F, 0x11C3F, 1),
  (0x11C46, 0x11C4F, 1), (0x11C6D, 0x11C6F, 1), (0x11C90, 0x11CA8, 1), (0x11CAA, 0x11CB0, 1),
  (0x11CB2, 0x11CB3, 1), (0x11CB5, 0x11CFF, 1), (0x11D07, 0x11D07, 1), (0x11D0A, 0x11D0A, 1),
  (0x11D31, 0x11D45, 1), (0x11D47, 0x11D4F, 1), (0x11D5A, 0x11D5F, 1), (0x11D66, 0x11D66, 1),
  (0x11D69, 0x11D69, 1), (0x11D8F, 0x11D92, 1), (0x11D95, 0x11D99, 2), (0x11D9A, 0x11D9F, 1),
  (0x11DAA, 0x11DAF, 1), (0x11DDC, 0x11DDF, 1), (0x11DEA, 0x11EDF, 1), (0x11EF3, 0x11EF4, 1),
  (0x11EF9, 0x11F01, 1), (0x11F11, 0x11F11, 1), (0x11F36, 0x11F3D, 1), (0x11F40, 0x11F42, 1),
  (0x11F5A, 0x11FAF, 1), (0x11FB1, 0x11FBF, 1), (0x11FF2, 0x11FFE, 1), (0x1239A, 0x123FF, 1),
  (0x1246F, 0x1246F, 1), (0x12475, 0x1247F, 1), (0x12544, 0x12F8F, 1), (0x12FF3, 0x12FFF, 1),
  (0x13430, 0x13440, 1), (0x13447, 0x1345F, 1), (0x143FB, 0x143FF, 1), (0x14647, 0x160FF, 1),
  (0x1611E, 0x16129, 1), (0x1612D, 0x1612F, 1), (0x1613A, 0x167FF, 1), (0x16A39, 0x16A3F, 1),
  (0x16A5F, 0x16A5F, 1), (0x16A6A, 0x16A6D, 1), (0x16ABF, 0x16ABF, 1), (0x16ACA, 0x16ACF, 1),
  (0x16AEE, 0x16AF4, 1), (0x16AF6, 0x16AFF, 1), (0x16B30, 0x16B36, 1), (0x16B46, 0x16B4F, 1),
  (0x16B5A, 0x16B5A, 1), (0x16B62, 0x16B62, 1), (0x16B78, 0x16B7C, 1), (0x16B90, 0x16D3F, 1),
  (0x16D7A, 0x16E3F, 1), (0x16E9B, 0x16E9F, 1), (0x16EB9, 0x16EBA, 1), (0x16ED4, 0x16EFF, 1),
  (0x16F4B, 0x16F4F, 1), (0x16F88, 0x16F92, 1), (0x16FA0, 0x16FDF, 1), (0x16FE4, 0x16FF1, 1),
  (0x16FF7, 0x16FFF, 1), (0x18CD6, 0x18CFE, 1), (0x18D1F, 0x18D7F, 1), (0x18DF3, 0x1AFEF, 1),
  (0x1AFF4, 0x1AFF4, 1), (0x1AFFC, 0x1AFFC, 1), (0x1AFFF, 0x1AFFF, 1), (0x1B123, 0x1B131, 1),
  (0x1B133, 0x1B14F, 1), (0x1B153, 0x1B154, 1), (0x1B156, 0x1B163, 1), (0x1B168, 0x1B16F, 1),
  (0x1B2FC, 0x1BBFF, 1), (0x1BC6B, 0x1BC6F, 1), (0x1BC7D, 0x1BC7F, 1), (0x1BC89, 0x1BC8F, 1),
  (0x1BC9A, 0x1BC9B, 1), (0x1BC9D, 0x1BC9E, 1), (0x1BCA0, 0x1CBFF, 1), (0x1CCFD, 0x1CCFF, 1),
  (0x1CEB4, 0x1CEB9, 1), (0x1CED1, 0x1CEDF, 1), (0x1CEF1, 0x1CF4F, 1), (0x1CFC4, 0x1CFFF, 1),
  (0x1D0F6, 0x1D0FF, 1), (0x1D127, 0x1D128, 1), (0x1D165, 0x1D169, 1), (0x1D16D, 0x1D182, 1),
  (0x1D185, 0x1D18B, 1), (0x1D1AA, 0x1D1AD, 1), (0x1D1EB, 0x1D1FF, 1), (0x1D242, 0x1D244, 1),
  (0x1D246, 0x1D2BF, 1), (0x1D2D4, 0x1D2DF, 1), (0x1D2F4, 0x1D2FF, 1), (0x1D357, 0x1D35F, 1),
  (0x1D379, 0x1D3FF, 1), (0x1D455, 0x1D455, 1), (0x1D49D, 0x1D49D, 1), (0x1D4A0, 0x1D4A1, 1),
  (0x1D4A3, 0x1D4A4, 1), (0x1D4A7, 0x1D4A8, 1), (0x1D4AD, 0x1D4AD, 1), (0x1D4BA, 0x1D4BA, 1),
  (0x1D4BC, 0x1D4BC, 1), (0x1D4C4, 0x1D4C4, 1), (0x1D506, 0x1D506, 1), (0x1D50B, 0x1D50C, 1),
  (0x1D515, 0x1D515, 1), (0x1D51D, 0x1D51D, 1), (0x1D53A, 0x1D53A, 1), (0x1D53F, 0x1D53F, 1),
  (0x1D545, 0x1D545, 1), (0x1D547, 0x1D549, 1), (0x1D551, 0x1D551, 1), (0x1D6A6, 0x1D6A7, 1),
  (0x1D7CC, 0x1D7CD, 1), (0x1DA00, 0x1DA36, 1), (0x1DA3B, 0x1DA6C, 1), (0x1DA75, 0x1DA75, 1),
  (0x1DA84, 0x1DA84, 1), (0x1DA8C, 0x1DEFF, 1), (0x1DF1F, 0x1DF24, 1), (0x1DF2B, 0x1E02F, 1),
  (0x1E06E, 0x1E0FF, 1), (0x1E12D, 0x1E136, 1), (0x1E13E, 0x1E13F, 1), (0x1E14A, 0x1E14D, 1),
  (0x1E150, 0x1E28F, 1), (0x1E2AE, 0x1E2BF, 1), (0x1E2EC, 0x1E2EF, 1), (0x1E2FA, 0x1E2FE, 1),
  (0x1E300, 0x1E4CF, 1), (0x1E4EC, 0x1E4EF, 1), (0x1E4FA, 0x1E5CF, 1), (0x1E5EE, 0x1E5EF, 1),
  (0x1E5FB, 0x1E5FE, 1), (0x1E600, 0x1E6BF, 1), (0x1E6DF, 0x1E6DF, 1), (0x1E6E3, 0x1E6E3, 1),
  (0x1E6E6, 0x1E6E6, 1), (0x1E6EE, 0x1E6EF, 1), (0x1E6F5, 0x1E6FD, 1), (0x1E700, 0x1E7DF, 1),
  (0x1E7E7, 0x1E7E7, 1), (0x1E7EC, 0x1E7EC, 1), (0x1E7EF, 0x1E7EF, 1), (0x1E7FF, 0x1E7FF, 1),
  (0x1E8C5, 0x1E8C6, 1), (0x1E8D0, 0x1E8FF, 1), (0x1E944, 0x1E94A, 1), (0x1E94C, 0x1E94F, 1),
  (0x1E95A, 0x1E95D, 1), (0x1E960, 0x1EC70, 1), (0x1ECB5, 0x1ED00, 1), (0x1ED3E, 0x1EDFF, 1),
  (0x1EE04, 0x1EE04, 1), (0x1EE20, 0x1EE20, 1), (0x1EE23, 0x1EE23, 1), (0x1EE25, 0x1EE26, 1),
  (0x1EE28, 0x1EE28, 1), (0x1EE33, 0x1EE33, 1), (0x1EE38, 0x1EE3C, 2), (0x1EE3D, 0x1EE41, 1),
  (0x1EE43, 0x1EE46, 1), (0x1EE48, 0x1EE4C, 2), (0x1EE50, 0x1EE50, 1), (0x1EE53, 0x1EE53, 1),
  (0x1EE55, 0x1EE56, 1), (0x1EE58, 0x1EE60, 2), (0x1EE63, 0x1EE63, 1), (0x1EE65, 0x1EE66, 1),
  (0x1EE6B, 0x1EE6B, 1), (0x1EE73, 0x1EE73, 1), (0x1EE78, 0x1EE78, 1), (0x1EE7D, 0x1EE7D, 1),
  (0x1EE7F, 0x1EE7F, 1), (0x1EE8A, 0x1EE8A, 1), (0x1EE9C, 0x1EEA0, 1), (0x1EEA4, 0x1EEA4, 1),
  (0x1EEAA, 0x1EEAA, 1), (0x1EEBC, 0x1EEEF, 1), (0x1EEF2, 0x1EFFF, 1), (0x1F02C, 0x1F02F, 1),
  (0x1F094, 0x1F09F, 1), (0x1F0AF, 0x1F0B0, 1), (0x1F0C0, 0x1F0C0, 1), (0x1F0D0, 0x1F0D0, 1),
  (0x1F0F6, 0x1F0FF, 1), (0x1F1AE, 0x1F1E5, 1), (0x1F203, 0x1F20F, 1), (0x1F23C, 0x1F23F, 1),
  (0x1F249, 0x1F24F, 1), (0x1F252, 0x1F25F, 1), (0x1F266, 0x1F2FF, 1), (0x1F6D9, 0x1F6DB, 1),
  (0x1F6ED, 0x1F6EF, 1), (0x1F6FD, 0x1F6FF, 1), (0x1F7DA, 0x1F7DF, 1), (0x1F7EC, 0x1F7EF, 1),
  (0x1F7F1, 0x1F7FF, 1), (0x1F80C, 0x1F80F, 1), (0x1F848, 0x1F84F, 1), (0x1F85A, 0x1F85F, 1),
  (0x1F888, 0x1F88F, 1), (0x1F8AE, 0x1F8AF, 1), (0x1F8BC, 0x1F8BF, 1), (0x1F8C2, 0x1F8CF, 1),
  (0x1F8D9, 0x1F8FF, 1), (0x1FA58, 0x1FA5F, 1), (0x1FA6E, 0x1FA6F, 1), (0x1FA7D, 0x1FA7F, 1),
  (0x1FA8B, 0x1FA8D, 1), (0x1FAC7, 0x1FAC7, 1), (0x1FAC9, 0x1FACC, 1), (0x1FADD, 0x1FADE, 1),
  (0x1FAEB, 0x1FAEE, 1), (0x1FAF9, 0x1FAFF, 1), (0x1FB93, 0x1FB93, 1), (0x1FBFB, 0x1FFFF, 1),
  (0x2A6E0, 0x2A6FF, 1), (0x2B81E, 0x2B81F, 1), (0x2CEAE, 0x2CEAF, 1), (0x2EBE1, 0x2EBEF, 1),
  (0x2EE5E, 0x2F7FF, 1), (0x2FA1E, 0x2FFFF, 1), (0x3134B, 0x3134F, 1), (0x3347A, 0x10FFFF, 1)]

/-- Whether `c` is written by its number inside a literal. -/
def isEscaped (c : Char) : Bool :=
  if c.toNat < 0x80 then c.toNat < 0x20 || c.toNat == 0x7F else onSpan escapedSpans c.toNat

/-- The form of `c` inside a literal that `quote` delimits. -/
def quoteChar (quote c : Char) : List Char :=
  if c == quote || c == '\\' then ['\\', c]
  else if c == '\x00' then ['\\', '0']
  else if c == '\t' then ['\\', 't']
  else if c == '\r' then ['\\', 'r']
  else if c == '\n' then ['\\', 'n']
  else if isEscaped c then "\\u\x7b".toList ++ Nat.toDigits 16 c.toNat ++ ['\x7d']
  else [c]

/-- A string literal. -/
def quoted (text : String) : String :=
  String.ofList ('"' :: text.toList.flatMap (quoteChar '"') ++ ['"'])

/-- A character literal. -/
def quotedChar (c : Char) : String :=
  String.ofList ('\'' :: quoteChar '\'' c ++ ['\''])

end CellAbi.Text
